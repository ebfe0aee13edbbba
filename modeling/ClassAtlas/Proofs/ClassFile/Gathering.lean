import ClassAtlas.Proofs.ClassFile.Sites
import ClassAtlas.Proofs.NameSet

/-!
Which names are gathered from a record. Gathering stops at the first strict site whose text does not
parse. If there is none, the result holds the bare names and the names of every text that parses as a
whole, and the malformed texts of lenient sites are reported one by one.
-/

namespace ClassAtlas.ClassFile

def Accepted (text : String) : Prop :=
  ∃ found, Descriptor.typeNames text = .ok found

/-- The text parses as a whole and `name` is one of its names. -/
def Mentions (text name : String) : Prop :=
  ∃ found, Descriptor.typeNames text = .ok found ∧ name ∈ found

def StrictSite.rejection? (site : StrictSite) : Option DecodeError :=
  match Descriptor.typeNames site.text with
  | .ok _ => none
  | .error cause => some (.descriptor site.context cause)

def LenientSite.skipped? (owner : String) (site : LenientSite) : Option SkippedSignature :=
  match Descriptor.typeNames site.text with
  | .ok _ => none
  | .error cause => some { kind := site.kind, context := site.context, owner, cause }

/-- The names of a text that parses; a malformed one has none. -/
def namesIn (text : String) : List String :=
  match Descriptor.typeNames text with
  | .ok found => found
  | .error _ => []

namespace Mention

def names : Mention → List String
  | .name internal => (Descriptor.internalName? internal).toList
  | .strict descriptor _ => namesIn descriptor
  | .lenient text _ _ => namesIn text

def rejection? (mention : Mention) : Option DecodeError :=
  mention.strict?.bind StrictSite.rejection?

def skipped? (owner : String) (mention : Mention) : Option SkippedSignature :=
  mention.lenient?.bind (LenientSite.skipped? owner)

end Mention

section Run

/-- One mention is rejected, or adds its names and what is skipped of it. -/
theorem Gathered.add_eq (owner : String) (g : Gathered) (mention : Mention) :
    g.add owner mention = match mention.rejection? with
      | some e => .error e
      | none => .ok {
          names := NameSet.insertAll mention.names g.names
          skipped := g.skipped ++ (mention.skipped? owner).toList } := by
  cases mention with
  | name internal =>
      rw [Gathered.add]
      simp [Mention.rejection?, Mention.strict?, Mention.skipped?, Mention.lenient?, Mention.names]
  | strict descriptor context =>
      rw [Gathered.add]
      cases parsed : Descriptor.typeNames descriptor with
      | ok found =>
          simp [Mention.rejection?, Mention.strict?, StrictSite.rejection?, parsed, Mention.skipped?,
            Mention.lenient?, Mention.names, namesIn]
      | error cause => simp [Mention.rejection?, Mention.strict?, StrictSite.rejection?, parsed]
  | lenient text kind context =>
      rw [Gathered.add]
      cases parsed : Descriptor.typeNames text with
      | ok found =>
          simp [Mention.rejection?, Mention.strict?, LenientSite.skipped?, parsed, Mention.skipped?,
            Mention.lenient?, Mention.names, namesIn]
      | error cause =>
          simp [Mention.rejection?, Mention.strict?, LenientSite.skipped?, parsed, Mention.skipped?,
            Mention.lenient?, Mention.names, namesIn, NameSet.insertAll]

/-- The first rejection ends the run; otherwise every mention has its part in the result. -/
theorem foldlM_add (owner : String) (mentions : List Mention) (g : Gathered) :
    mentions.foldlM (Gathered.add owner) g = match mentions.findSome? Mention.rejection? with
      | some e => .error e
      | none => .ok {
          names := NameSet.insertAll (mentions.flatMap Mention.names) g.names
          skipped := g.skipped ++ mentions.filterMap (Mention.skipped? owner) } := by
  induction mentions generalizing g with
  | nil =>
      rw [List.filterMap_nil, List.append_nil]
      rfl
  | cons mention mentions ih =>
      rw [List.foldlM_cons, Gathered.add_eq, List.findSome?_cons]
      cases mention.rejection? with
      | some e => rfl
      | none =>
          have taken : NameSet.insertAll ((mention :: mentions).flatMap Mention.names) g.names =
              NameSet.insertAll (mentions.flatMap Mention.names)
                (NameSet.insertAll mention.names g.names) := List.foldl_append
          have skipped : (mention :: mentions).filterMap (Mention.skipped? owner) =
              (mention.skipped? owner).toList ++ mentions.filterMap (Mention.skipped? owner) := by
            rw [List.filterMap_cons]
            cases mention.skipped? owner <;> rfl
          rw [taken, skipped, ← List.append_assoc]
          exact ih _

end Run

theorem mentions_iff_mem (text name : String) : Mentions text name ↔ name ∈ namesIn text := by
  unfold namesIn Mentions
  cases Descriptor.typeNames text <;> simp

theorem StrictSite.rejection?_eq_none_iff (site : StrictSite) :
    site.rejection? = none ↔ Accepted site.text := by
  unfold StrictSite.rejection? Accepted
  cases Descriptor.typeNames site.text <;> simp

theorem StrictSite.rejection?_eq_some_iff (site : StrictSite) (e : DecodeError) :
    site.rejection? = some e ↔
      ∃ cause, Descriptor.typeNames site.text = .error cause ∧ e = .descriptor site.context cause := by
  unfold StrictSite.rejection?
  cases Descriptor.typeNames site.text <;> simp [eq_comm]

theorem Mention.mem_names (mention : Mention) (name : String) :
    name ∈ mention.names ↔ (∃ site, mention.strict? = some site ∧ Mentions site.text name) ∨
      mention.bare? = some name ∨ ∃ site, mention.lenient? = some site ∧ Mentions site.text name := by
  simp only [mentions_iff_mem]
  cases mention with
  | name internal => simp [Mention.names, Mention.strict?, Mention.bare?, Mention.lenient?]
  | strict descriptor context =>
      simp [Mention.names, Mention.strict?, Mention.bare?, Mention.lenient?]
  | lenient text kind context =>
      simp [Mention.names, Mention.strict?, Mention.bare?, Mention.lenient?]

namespace Record

/-- The first strict site of the record that is not accepted, as an error. -/
def Rejects (record : Record) (e : DecodeError) : Prop :=
  ∃ before site after cause, record.strictSites = before ++ site :: after ∧
    (∀ earlier ∈ before, Accepted earlier.text) ∧
    Descriptor.typeNames site.text = .error cause ∧ e = .descriptor site.context cause

def RefersTo (record : Record) (name : String) : Prop :=
  (∃ site ∈ record.strictSites, Mentions site.text name) ∨
    (name ∈ record.bareNames ∧ name ≠ "" ∧ name.toList.head? ≠ some '[') ∨
    ∃ site ∈ record.lenientSites, Mentions site.text name

theorem mem_names_iff_refersTo (record : Record) (name : String) :
    name ∈ (Mention.ofRecord record).flatMap Mention.names ↔ record.RefersTo name := by
  obtain ⟨strictOf, bareOf, lenientOf⟩ := sites_ofRecord record
  rw [RefersTo, ← strictOf, ← lenientOf]
  have bare : (name ∈ record.bareNames ∧ name ≠ "" ∧ name.toList.head? ≠ some '[') ↔
      ∃ mention ∈ Mention.ofRecord record, mention.bare? = some name := by
    rw [← List.mem_filterMap, bareOf, List.mem_filterMap]
    simp only [internalName?_eq_some_iff]
    constructor
    · intro ⟨listed, usable⟩
      exact ⟨name, listed, rfl, usable⟩
    · rintro ⟨_, listed, rfl, usable⟩
      exact ⟨listed, usable⟩
  rw [bare]
  simp only [List.mem_flatMap, List.mem_filterMap, Mention.mem_names]
  constructor
  · rintro ⟨mention, listed, ⟨site, strict, mentioned⟩ | named | ⟨site, lenient, mentioned⟩⟩
    · exact .inl ⟨site, ⟨mention, listed, strict⟩, mentioned⟩
    · exact .inr (.inl ⟨mention, listed, named⟩)
    · exact .inr (.inr ⟨site, ⟨mention, listed, lenient⟩, mentioned⟩)
  · rintro (⟨site, ⟨mention, listed, strict⟩, mentioned⟩ | ⟨mention, listed, named⟩ |
      ⟨site, ⟨mention, listed, lenient⟩, mentioned⟩)
    · exact ⟨mention, listed, .inl ⟨site, strict, mentioned⟩⟩
    · exact ⟨mention, listed, .inr (.inl named)⟩
    · exact ⟨mention, listed, .inr (.inr ⟨site, lenient, mentioned⟩)⟩

theorem references_eq (record : Record) :
    record.references = match record.strictSites.findSome? StrictSite.rejection? with
      | some e => .error e
      | none => .ok {
          names := NameSet.insertAll ((Mention.ofRecord record).flatMap Mention.names) []
          skipped := record.lenientSites.filterMap (LenientSite.skipped? record.thisClass) } := by
  obtain ⟨strictOf, -, lenientOf⟩ := sites_ofRecord record
  have first : (Mention.ofRecord record).findSome? Mention.rejection? =
      record.strictSites.findSome? StrictSite.rejection? := by
    rw [← List.head?_filterMap, ← List.head?_filterMap, ← strictOf, List.filterMap_filterMap]
    rfl
  have skipped : (Mention.ofRecord record).filterMap (Mention.skipped? record.thisClass) =
      record.lenientSites.filterMap (LenientSite.skipped? record.thisClass) := by
    rw [← lenientOf, List.filterMap_filterMap]
    rfl
  rw [references, gather, foldlM_add, first, skipped, List.nil_append]

theorem references_eq_error_iff (record : Record) (e : DecodeError) :
    record.references = .error e ↔ record.Rejects e := by
  have rejects : record.Rejects e ↔
      record.strictSites.findSome? StrictSite.rejection? = some e := by
    simp only [Rejects, List.findSome?_eq_some_iff, StrictSite.rejection?_eq_some_iff,
      StrictSite.rejection?_eq_none_iff]
    constructor
    · rintro ⟨before, site, after, cause, split, accepted, rejected, rfl⟩
      exact ⟨before, site, after, split, ⟨cause, rejected, rfl⟩, accepted⟩
    · rintro ⟨before, site, after, split, ⟨cause, rejected, rfl⟩, accepted⟩
      exact ⟨before, site, after, cause, split, accepted, rejected, rfl⟩
  rw [rejects, references_eq]
  cases record.strictSites.findSome? StrictSite.rejection? <;> simp

/-- The result of a record whose strict sites are all accepted. -/
structure Gathers (record : Record) (gathered : Gathered) : Prop where
  ascending : NameSet.Ascending gathered.names
  names (name : String) : name ∈ gathered.names ↔ record.RefersTo name
  skipped : gathered.skipped = record.lenientSites.filterMap (LenientSite.skipped? record.thisClass)

theorem Gathers.unique {record : Record} {first second : Gathered} (gathersFirst : record.Gathers first)
    (gathersSecond : record.Gathers second) : first = second := by
  have names : first.names = second.names := by
    refine List.Pairwise.eq_of_mem_iff gathersFirst.ascending gathersSecond.ascending fun name => ?_
    rw [gathersFirst.names, gathersSecond.names]
  have skipped := gathersFirst.skipped.trans gathersSecond.skipped.symm
  cases first
  cases second
  rw [Gathered.mk.injEq]
  exact ⟨names, skipped⟩

theorem references_eq_ok_iff (record : Record) (gathered : Gathered) :
    record.references = .ok gathered ↔
      (∀ site ∈ record.strictSites, Accepted site.text) ∧ record.Gathers gathered := by
  have result : record.Gathers {
      names := NameSet.insertAll ((Mention.ofRecord record).flatMap Mention.names) []
      skipped := record.lenientSites.filterMap (LenientSite.skipped? record.thisClass) } := by
    refine ⟨NameSet.Ascending.insertAll List.Pairwise.nil _, fun name => ?_, rfl⟩
    rw [NameSet.mem_insertAll, mem_names_iff_refersTo, or_iff_left List.not_mem_nil]
  have accepted : (∀ site ∈ record.strictSites, Accepted site.text) ↔
      record.strictSites.findSome? StrictSite.rejection? = none := by
    simp only [List.findSome?_eq_none_iff, StrictSite.rejection?_eq_none_iff]
  rw [accepted, references_eq]
  cases record.strictSites.findSome? StrictSite.rejection? with
  | some e => simp
  | none =>
      constructor
      · intro same
        cases same
        exact ⟨rfl, result⟩
      · intro ⟨_, gathers⟩
        rw [result.unique gathers]

/-- Gathering fails exactly for a strict site whose text is not accepted, with the first such site as
the error. Otherwise it finds exactly the names that the record refers to. -/
theorem references_exact (record : Record) :
    ((∃ e, record.references = .error e) ↔ ∃ site ∈ record.strictSites, ¬ Accepted site.text) ∧
      (∀ e, record.references = .error e ↔ record.Rejects e) ∧
      ∀ gathered, record.references = .ok gathered ↔
        (∀ site ∈ record.strictSites, Accepted site.text) ∧ record.Gathers gathered := by
  refine ⟨?_, record.references_eq_error_iff, record.references_eq_ok_iff⟩
  constructor
  · intro ⟨e, failed⟩
    obtain ⟨before, site, after, cause, split, -, rejected, -⟩ :=
      (record.references_eq_error_iff e).mp failed
    refine ⟨site, split ▸ List.mem_append_right _ List.mem_cons_self, ?_⟩
    intro ⟨found, parsed⟩
    rw [rejected] at parsed
    cases parsed
  · intro ⟨site, listed, refused⟩
    cases answer : record.references with
    | error e => exact ⟨e, rfl⟩
    | ok gathered =>
        have accepted := ((record.references_eq_ok_iff gathered).mp answer).1
        exact (refused (accepted site listed)).elim

end Record

end ClassAtlas.ClassFile

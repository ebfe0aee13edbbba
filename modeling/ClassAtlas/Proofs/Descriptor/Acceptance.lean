import ClassAtlas.Proofs.Descriptor.Derivation
import Mathlib.Data.List.TakeWhile

/-!
The scanner accepts exactly the texts of the grammar and returns exactly the names of their trees.
Every reader is shown equivalent to the derivation of what it reads, by induction on its bound; the
bound is never exhausted because each level takes a character.
-/

namespace ClassAtlas.Descriptor

/-- The answer of a scan from `s`, with the scanner it leaves. -/
def outcome {α : Type} (m : Scan α) (s : Scanner) : Except Error α × Scanner :=
  m.run s

theorem outcome_bind {α β : Type} (m : Scan α) (f : α → Scan β) (s : Scanner) :
    outcome (m >>= f) s = match outcome m s with
      | (.ok a, t) => outcome (f a) t
      | (.error e, t) => (.error e, t) := by
  change (match outcome m s with | (r, t) => ExceptT.bindCont f r t) = _
  rcases outcome m s with ⟨e | a, t⟩ <;> rfl

/-- The scan succeeds from `s` with `rest` left to be read and `names` met, at whatever offset. -/
def Reads (m : Scan Unit) (s : Scanner) (rest : List Char) (names : List String) : Prop :=
  ∃ offset, outcome m s = (.ok (), { rest, offset, names })

section Steps

variable {α : Type} {s t : Scanner} {rest : List Char} {names : List String}

@[simp] theorem not_reads_throw (e : Error) : ¬ Reads (throw e) s rest names := by
  rintro ⟨offset, h⟩
  cases h

@[simp] theorem not_reads_failAtEnd : ¬ Reads failAtEnd s rest names := by
  rintro ⟨offset, h⟩
  cases h

@[simp] theorem not_reads_failAtTextEnd : ¬ Reads failAtTextEnd s rest names := by
  rintro ⟨offset, h⟩
  cases h

@[simp] theorem reads_pure : Reads (pure ()) s rest names ↔ s.rest = rest ∧ names = s.names := by
  constructor
  · rintro ⟨offset, h⟩
    cases h
    exact ⟨rfl, rfl⟩
  · rintro ⟨rfl, rfl⟩
    exact ⟨s.offset, rfl⟩

theorem reads_bind_ok {m : Scan α} {a : α} (ran : outcome m s = (.ok a, t)) (f : α → Scan Unit) :
    Reads (m >>= f) s rest names ↔ Reads (f a) t rest names := by
  unfold Reads
  rw [outcome_bind, ran]

theorem not_reads_bind_error {m : Scan α} {e : Error} (ran : outcome m s = (.error e, t))
    (f : α → Scan Unit) : ¬ Reads (m >>= f) s rest names := by
  rintro ⟨offset, h⟩
  rw [outcome_bind, ran] at h
  cases h

/-- Two readers in a row, once each is known by what it does to the rest and the names. -/
theorem reads_then {m k : Scan Unit} {P Q : List Char → List String → Prop}
    (first : ∀ tail between, Reads m s tail between ↔ P tail between)
    (second : ∀ t : Scanner, P t.rest t.names → (Reads k t rest names ↔ Q t.rest t.names)) :
    Reads (m >>= fun _ => k) s rest names ↔ ∃ tail between, P tail between ∧ Q tail between := by
  constructor
  · intro reads
    cases ran : outcome m s with
    | mk answer t =>
        cases answer with
        | error e => exact absurd reads (not_reads_bind_error ran _)
        | ok done =>
            have spanned := (first t.rest t.names).mp ⟨t.offset, ran⟩
            exact ⟨_, _, spanned, (second t spanned).mp ((reads_bind_ok ran _).mp reads)⟩
  · rintro ⟨tail, between, spanned, more⟩
    obtain ⟨offset, ran⟩ := (first tail between).mpr spanned
    exact (reads_bind_ok ran _).mpr ((second ⟨tail, offset, between⟩ spanned).mpr more)

/-- The scanner after the character `c`, with `rest` left. -/
def Scanner.after (s : Scanner) (c : Char) (rest : List Char) : Scanner :=
  { s with rest, offset := s.offset + c.utf8Size }

/-- A reader that takes a character passes on a bound lower by one. -/
theorem tail_length_lt {bound : Nat} {c : Char} {tail : List Char} (starts : s.rest = c :: tail)
    (enough : s.rest.length < bound + 1) : tail.length < bound := by
  rw [starts] at enough
  exact Nat.lt_of_succ_lt_succ enough

theorem outcome_next?_nil (ended : s.rest = []) : outcome next? s = (.ok none, s) := by
  rcases s with ⟨rest, offset, names⟩
  subst ended
  rfl

theorem outcome_next?_cons {c : Char} {tail : List Char} (starts : s.rest = c :: tail) :
    outcome next? s = (.ok (some (c, s.offset)), s.after c tail) := by
  rcases s with ⟨rest, offset, names⟩
  subst starts
  rfl

/-- Reading one character, for a reader known by what it does with a text that begins with it. -/
theorem reads_next {f : Char × Nat → Scan Unit} (P : List Char → Prop)
    (step : ∀ c tail, s.rest = c :: tail →
      (Reads (f (c, s.offset)) (s.after c tail) rest names ↔ P (c :: tail)))
    (ended : ¬ P []) :
    Reads (next >>= f) s rest names ↔ P s.rest := by
  rw [next, bind_assoc]
  cases starts : s.rest with
  | nil =>
      rw [reads_bind_ok (outcome_next?_nil starts)]
      constructor
      · intro reads
        exact absurd reads (not_reads_bind_error rfl _)
      · intro holds
        exact absurd holds ended
  | cons c tail =>
      rw [reads_bind_ok (outcome_next?_cons starts)]
      exact step c tail starts

theorem reads_peek? {f : Option Char → Scan Unit} :
    Reads (peek? >>= f) s rest names ↔ Reads (f s.rest.head?) s rest names :=
  reads_bind_ok rfl f

theorem reads_addName {k : Scan Unit} (name : List Char) :
    Reads (addName name >>= fun _ => k) s rest names ↔
      Reads k { s with names := s.names ++ [String.ofList name] } rest names :=
  reads_bind_ok rfl _

theorem Segment.takeWhile_append {stops : List Char} (name : Segment stops) {c : Char}
    (stop : c ∈ stops) (tail : List Char) :
    (name.text ++ c :: tail).takeWhile (!stops.contains ·) = name.text := by
  rw [List.takeWhile_append_of_pos (by simpa using name.free)]
  simp [stop]

theorem Segment.dropWhile_append {stops : List Char} (name : Segment stops) {c : Char}
    (stop : c ∈ stops) (tail : List Char) :
    (name.text ++ c :: tail).dropWhile (!stops.contains ·) = c :: tail := by
  rw [List.dropWhile_append_of_pos (by simpa using name.free)]
  simp [stop]

theorem outcome_takeUntil? {stops tail : List Char} (name : Segment stops) {c : Char}
    (stop : c ∈ stops) (split : s.rest = name.text ++ c :: tail) :
    outcome (takeUntil? stops) s = (.ok (some name.text),
      { s with rest := c :: tail, offset := s.offset + utf8Length name.text }) := by
  change (_, _) = _
  rw [split, name.takeWhile_append stop, name.dropWhile_append stop]

/-- A text that holds a stop has a first one. -/
theorem exists_segment {stops text : List Char}
    (stopped : text.dropWhile (!stops.contains ·) ≠ []) :
    ∃ (name : Segment stops) (c : Char) (tail : List Char),
      c ∈ stops ∧ text = name.text ++ c :: tail := by
  obtain ⟨c, tail, dropped⟩ := List.exists_cons_of_ne_nil stopped
  refine ⟨⟨text.takeWhile (!stops.contains ·), ?_⟩, c, tail, ?_, ?_⟩
  · intro d taken
    simpa using List.mem_takeWhile_imp taken
  · have stop := List.head_dropWhile_not (!stops.contains ·) stopped
    simp only [dropped, List.head_cons] at stop
    simpa using stop
  · rw [← dropped, List.takeWhile_append_dropWhile]

/-- A text holds no stop, or it has a first one. -/
theorem free_or_exists_segment (stops text : List Char) :
    (∀ c ∈ text, c ∉ stops) ∨ ∃ (name : Segment stops) (c : Char) (tail : List Char),
      c ∈ stops ∧ text = name.text ++ c :: tail := by
  by_cases dropped : text.dropWhile (!stops.contains ·) = []
  · exact .inl (by simpa using List.dropWhile_eq_nil_iff.mp dropped)
  · exact .inr (exists_segment dropped)

theorem outcome_takeUntil?_none {stops : List Char} (free : ∀ c ∈ s.rest, c ∉ stops) :
    outcome (takeUntil? stops) s = (.ok none, s) := by
  have dropped : s.rest.dropWhile (!stops.contains ·) = [] := by
    simpa using free
  change (_, _) = _
  rw [dropped]

/-- Reading up to a stop, for a reader that cannot go on without one. -/
theorem reads_takeUntil? (stops : List Char) {f : Option (List Char) → Scan Unit}
    (rejects : ¬ Reads (f none) s rest names) :
    Reads (takeUntil? stops >>= f) s rest names ↔
      ∃ (name : Segment stops) (c : Char) (tail : List Char), c ∈ stops ∧
        s.rest = name.text ++ c :: tail ∧
        Reads (f (some name.text))
          { s with rest := c :: tail, offset := s.offset + utf8Length name.text } rest names := by
  constructor
  · intro reads
    rcases free_or_exists_segment stops s.rest with free | ⟨name, c, tail, stop, split⟩
    · exact absurd ((reads_bind_ok (outcome_takeUntil?_none free) f).mp reads) rejects
    · exact ⟨name, c, tail, stop, split,
        (reads_bind_ok (outcome_takeUntil? name stop split) f).mp reads⟩
  · rintro ⟨name, c, tail, stop, split, reads⟩
    exact (reads_bind_ok (outcome_takeUntil? name stop split) f).mpr reads

end Steps

theorem TypeSpan.shorter {text rest : List Char} {before after : List String}
    (span : TypeSpan text rest before after) : rest.length < text.length := by
  obtain ⟨type, rfl, -⟩ := span
  have nonempty := List.length_pos_iff.mpr type.render_ne_nil
  rw [List.length_append]
  omega

theorem ArgumentsSpan.shorter {text rest : List Char} {before after : List String}
    (span : ArgumentsSpan text rest before after) : rest.length < text.length := by
  obtain ⟨args, rfl, -⟩ := span
  simp only [List.length_append, List.length_cons]
  omega

/-- The three readers that call each other, each equivalent to the derivation of what it reads. -/
structure ScansTypes (bound : Nat) : Prop where
  type (first : Char) (start : Nat) (s : Scanner) (rest : List Char) (names : List String) :
    s.rest.length < bound →
      (Reads (typeFrom bound first start) s rest names ↔
        TypeSpan (first :: s.rest) rest s.names names)
  suffixes (start : Nat) (name : List Char) (s : Scanner) (rest : List Char) (names : List String) :
    s.rest.length < bound →
      (Reads (classSuffixes bound start name) s rest names ↔
        PartsSpan name s.rest rest s.names names)
  arguments (s : Scanner) (rest : List Char) (names : List String) :
    s.rest.length < bound →
      (Reads (typeArguments bound) s rest names ↔ ArgumentsSpan s.rest rest s.names names)

section Types

variable {bound : Nat} {s : Scanner} {rest : List Char} {names : List String}

theorem reads_typeVariable :
    Reads typeVariable s rest names ↔
      ∃ name : Segment [';'], s.rest = name.text ++ ';' :: rest ∧ names = s.names := by
  rw [typeVariable, reads_takeUntil? [';'] not_reads_failAtTextEnd]
  constructor
  · rintro ⟨name, c, tail, stop, split, offset, ran⟩
    cases ran
    rw [List.mem_singleton] at stop
    exact ⟨name, stop ▸ split, rfl⟩
  · rintro ⟨name, split, rfl⟩
    exact ⟨name, ';', rest, List.mem_singleton_self _, split, _, rfl⟩

/-- A class type after its `L`: a name that is not empty, then the parts after it. -/
theorem ScansTypes.reads_classType (ih : ScansTypes bound) (start : Nat)
    (enough : s.rest.length < bound + 1) :
    Reads (takeUntil? nameStops >>= fun
        | none => throw (.unterminatedClass start)
        | some [] => throw (.unterminatedClass start)
        | some name => do
          addName name
          classSuffixes bound start name) s rest names ↔
      ∃ (name : Segment [';', '<', '.']) (tail : List Char), name.text ≠ [] ∧
        s.rest = name.text ++ tail ∧
          PartsSpan name.text tail rest (s.names ++ [String.ofList name.text]) names := by
  rw [reads_takeUntil? nameStops (not_reads_throw _)]
  constructor
  · rintro ⟨name, c, tail, stop, split, reads⟩
    cases spelled : name.text with
    | nil =>
        rw [spelled] at reads
        exact absurd reads (not_reads_throw _)
    | cons d text =>
        rw [spelled] at reads
        have shorter : (c :: tail).length < bound := by
          rw [split, spelled] at enough
          simp only [List.length_append, List.length_cons] at enough ⊢
          omega
        refine ⟨name, c :: tail, by simp [spelled], split, ?_⟩
        rw [spelled]
        exact (ih.suffixes start _ _ rest names shorter).mp ((reads_addName _).mp reads)
  · rintro ⟨name, text, named, split, parts⟩
    obtain ⟨c, tail, rfl, stop⟩ := parts.opens
    refine ⟨name, c, tail, stop, split, ?_⟩
    obtain ⟨d, more, spelled⟩ := List.exists_cons_of_ne_nil named
    have shorter : (c :: tail).length < bound := by
      rw [split, spelled] at enough
      simp only [List.length_append, List.length_cons] at enough ⊢
      omega
    rw [spelled] at parts ⊢
    exact (reads_addName _).mpr ((ih.suffixes start _ _ rest names shorter).mpr parts)

theorem ScansTypes.reads_typeFrom (ih : ScansTypes bound) (first : Char) (start : Nat)
    (enough : s.rest.length < bound + 1) :
    Reads (typeFrom (bound + 1) first start) s rest names ↔
      TypeSpan (first :: s.rest) rest s.names names := by
  rw [typeFrom, typeSpan_cons]
  by_cases base : isBaseType first
  · have known : first ∈ ['B', 'C', 'D', 'F', 'I', 'J', 'S', 'Z', 'V'] := by
      simpa [isBaseType] using base
    have other : first ≠ '[' ∧ first ≠ 'L' ∧ first ≠ 'T' := by
      refine ⟨?_, ?_, ?_⟩ <;> rintro rfl <;> exact absurd known (by decide)
    simp [base, known, other]
  have unknown : first ∉ ['B', 'C', 'D', 'F', 'I', 'J', 'S', 'Z', 'V'] := by
    simpa [isBaseType] using base
  by_cases array : first = '['
  · subst array
    simp only [base, unknown, Bool.false_eq_true, Char.reduceEq, if_true, if_false, false_and,
      false_or, or_false, true_and]
    refine reads_next (TypeSpan · rest s.names names) (fun c tail starts => ?_)
      (not_typeSpan_nil rest s.names names)
    refine ih.type c s.offset (s.after c tail) rest names ?_
    rw [starts] at enough
    exact Nat.lt_of_succ_lt_succ enough
  by_cases classType : first = 'L'
  · subst classType
    simp only [base, unknown, Bool.false_eq_true, Char.reduceEq, if_true, if_false, false_and,
      false_or, or_false, true_and]
    exact ih.reads_classType start enough
  by_cases variableType : first = 'T'
  · subst variableType
    simp only [base, unknown, Bool.false_eq_true, Char.reduceEq, if_true, if_false, false_and,
      false_or, true_and]
    exact reads_typeVariable
  · simp [base, unknown, array, classType, variableType]

/-- An inner class name after its dot. It may be empty. -/
theorem ScansTypes.reads_inner (ih : ScansTypes bound) (start : Nat) (name : List Char)
    (enough : s.rest.length < bound) :
    Reads (takeUntil? nameStops >>= fun
        | none => throw (.unterminatedClass start)
        | some inner => do
          addName (name ++ '$' :: inner)
          classSuffixes bound start (name ++ '$' :: inner)) s rest names ↔
      ∃ (suffix : Segment [';', '<', '.']) (tail : List Char), s.rest = suffix.text ++ tail ∧
        PartsSpan (name ++ '$' :: suffix.text) tail rest
          (s.names ++ [String.ofList (name ++ '$' :: suffix.text)]) names := by
  rw [reads_takeUntil? nameStops (not_reads_throw _)]
  have shorter {suffix tail : List Char} (split : s.rest = suffix ++ tail) :
      tail.length < bound := by
    rw [split, List.length_append] at enough
    omega
  constructor
  · rintro ⟨suffix, c, tail, stop, split, reads⟩
    exact ⟨suffix, c :: tail, split,
      (ih.suffixes start _ _ rest names (shorter split)).mp ((reads_addName _).mp reads)⟩
  · rintro ⟨suffix, text, split, parts⟩
    obtain ⟨c, tail, rfl, stop⟩ := parts.opens
    exact ⟨suffix, c, tail, stop, split,
      (reads_addName _).mpr ((ih.suffixes start _ _ rest names (shorter split)).mpr parts)⟩

theorem ScansTypes.reads_classSuffixes (ih : ScansTypes bound) (start : Nat) (name : List Char)
    (enough : s.rest.length < bound + 1) :
    Reads (classSuffixes (bound + 1) start name) s rest names ↔
      PartsSpan name s.rest rest s.names names := by
  rw [classSuffixes]
  cases starts : s.rest with
  | nil =>
      rw [reads_bind_ok (outcome_next?_nil starts)]
      constructor
      · intro reads
        exact absurd reads (not_reads_throw _)
      · intro parts
        obtain ⟨c, tail, wrong, -⟩ := parts.opens
        cases wrong
  | cons c tail =>
      have within := tail_length_lt starts enough
      rw [reads_bind_ok (outcome_next?_cons starts), partsSpan_cons]
      by_cases semicolon : c = ';'
      · subst semicolon
        simp [Scanner.after]
      by_cases bracket : c = '<'
      · subst bracket
        simp only [Char.reduceEq, if_true, if_false, false_and, false_or, or_false, true_and]
        refine reads_then (fun after between => ih.arguments _ after between within) ?_
        intro t arguments
        exact ih.suffixes start name t rest names (Nat.lt_trans arguments.shorter within)
      by_cases dot : c = '.'
      · subst dot
        simp only [Char.reduceEq, if_true, if_false, false_and, false_or, true_and]
        exact ih.reads_inner start name within
      · simp [semicolon, bracket, dot]

/-- One type argument and the arguments after it. -/
theorem ScansTypes.reads_argument (ih : ScansTypes bound) (first : Char) (start : Nat)
    (enough : s.rest.length < bound) :
    Reads (typeFrom bound first start >>= fun _ => typeArguments bound) s rest names ↔
      ∃ tail between, TypeSpan (first :: s.rest) tail s.names between ∧
        ArgumentsSpan tail rest between names := by
  refine reads_then (fun tail between => ih.type first start s tail between enough) ?_
  intro t type
  have shorter := type.shorter
  rw [List.length_cons] at shorter
  exact ih.arguments t rest names (by omega)

theorem ScansTypes.reads_typeArguments (ih : ScansTypes bound)
    (enough : s.rest.length < bound + 1) :
    Reads (typeArguments (bound + 1)) s rest names ↔
      ArgumentsSpan s.rest rest s.names names := by
  rw [typeArguments]
  refine reads_next (ArgumentsSpan · rest s.names names) (fun c tail starts => ?_)
    (not_argumentsSpan_nil rest s.names names)
  have within := tail_length_lt starts enough
  rw [argumentsSpan_cons]
  by_cases bracket : c = '>'
  · subst bracket
    simp [typeSpan_cons, Scanner.after]
  by_cases wildcard : c = '*'
  · subst wildcard
    simp only [typeSpan_cons, List.mem_cons, List.not_mem_nil, Char.reduceEq, if_true, if_false,
      false_and, false_or, or_false, true_and, exists_false]
    exact ih.arguments (s.after '*' tail) rest names within
  by_cases variance : c = '+' ∨ c = '-'
  · have closed (after : List Char) (between : List String) :
        ¬ TypeSpan (c :: tail) after s.names between := by
      rw [typeSpan_cons]
      rcases variance with rfl | rfl <;> simp
    simp only [bracket, wildcard, variance, closed, if_true, if_false, false_and, false_or, or_false,
      true_and, exists_false]
    refine reads_next (fun text => ∃ after between, TypeSpan text after s.names between ∧
      ArgumentsSpan after rest between names) (fun first text begins => ?_) ?_
    · have shorter : text.length < bound := by
        rw [show tail = first :: text from begins, List.length_cons] at within
        omega
      exact ih.reads_argument first _ shorter
    · rintro ⟨after, between, type, -⟩
      exact not_typeSpan_nil after s.names between type
  · simp only [bracket, wildcard, variance, if_false, false_and, false_or]
    exact ih.reads_argument c _ within

end Types

/-- Below the bound every reader of types follows the grammar. -/
theorem scansTypes (bound : Nat) : ScansTypes bound := by
  induction bound with
  | zero =>
      exact ⟨fun _ _ _ _ _ short => absurd short (Nat.not_lt_zero _),
        fun _ _ _ _ _ short => absurd short (Nat.not_lt_zero _),
        fun _ _ _ short => absurd short (Nat.not_lt_zero _)⟩
  | succ bound ih =>
      exact ⟨fun first start _ _ _ enough => ih.reads_typeFrom first start enough,
        fun start name _ _ _ enough => ih.reads_classSuffixes start name enough,
        fun _ _ _ enough => ih.reads_typeArguments enough⟩

section Formals

variable {s : Scanner} {rest : List Char} {names : List String}

theorem outcome_discard_next {c : Char} {tail : List Char} (starts : s.rest = c :: tail) :
    outcome (discard next) s = (.ok (), s.after c tail) := by
  rcases s with ⟨rest, offset, names⟩
  subst starts
  rfl

theorem any_contains_iff_opensReference (text : List Char) :
    text.head?.any ['L', '[', 'T'].contains = true ↔ OpensReference text := by
  cases text <;> simp [OpensReference]

theorem reads_typeBounds (bound : Nat) (enough : s.rest.length < bound) :
    Reads (typeBounds bound) s rest names ↔ BoundsSpan s.rest rest s.names names := by
  induction bound generalizing s with
  | zero => exact absurd enough (Nat.not_lt_zero _)
  | succ bound ih =>
      rw [typeBounds, reads_peek?]
      by_cases colon : s.rest.head? = some ':'
      · obtain ⟨tail, starts⟩ := List.head?_eq_some_iff.mp colon
        have within := tail_length_lt starts enough
        rw [if_pos colon, reads_bind_ok (outcome_discard_next starts), reads_peek?, starts,
          boundsSpan_colon]
        by_cases opens : OpensReference tail
        · simp only [Scanner.after, (any_contains_iff_opensReference tail).mpr opens, opens, if_true,
            true_and, not_true, false_and, or_false]
          refine reads_next (fun text => ∃ after between, TypeSpan text after s.names between ∧
            BoundsSpan after rest between names) (fun first text begins => ?_) ?_
          · have shorter : text.length < bound := by
              rw [show tail = first :: text from begins, List.length_cons] at within
              omega
            refine reads_then
              (fun after between => (scansTypes bound).type first _ _ after between shorter) ?_
            intro t type
            have remaining := type.shorter
            rw [List.length_cons] at remaining
            exact ih (s := t) (Nat.lt_of_le_of_lt (Nat.le_of_lt_succ remaining) shorter)
          · rintro ⟨after, between, type, -⟩
            exact not_typeSpan_nil after s.names between type
        · simp only [Scanner.after, mt (any_contains_iff_opensReference tail).mp opens, opens,
            if_false, Bool.false_eq_true, not_false_eq_true, true_and, false_and, false_or]
          exact ih (s := s.after ':' tail) within
      · rw [if_neg colon, reads_pure, boundsSpan_of_no_colon colon]

/-- The names that the reader of formal parameters lets through are those of the grammar. -/
theorem formalName_iff {name : List Char} (clear : ∀ c ∈ name, c ∉ [':']) :
    ¬ (name.isEmpty = true ∨ name.any ['>', ';', '<'].contains = true) ↔
      name ≠ [] ∧ ∀ c ∈ name, c ∉ [':', '<', '>', ';'] := by
  simp only [List.isEmpty_iff, List.any_eq_true, List.contains_iff_mem, not_or, not_exists, not_and,
    List.mem_cons, List.not_mem_nil, or_false] at clear ⊢
  constructor
  · rintro ⟨named, plain⟩
    exact ⟨named, fun c inside => ⟨clear c inside, (plain c inside).2.2, (plain c inside).1,
      (plain c inside).2.1⟩⟩
  · rintro ⟨named, plain⟩
    exact ⟨named, fun c inside => ⟨(plain c inside).2.2.1, (plain c inside).2.2.2,
      (plain c inside).2.1⟩⟩

theorem BoundsSpan.not_longer {text rest : List Char} {before after : List String}
    (span : BoundsSpan text rest before after) : rest.length ≤ text.length := by
  obtain ⟨bounds, rfl, -⟩ := span
  simp

theorem FormalsSpan.shorter {text rest : List Char} {before after : List String}
    (span : FormalsSpan text rest before after) : rest.length < text.length := by
  obtain ⟨formals, -, rfl, -⟩ := span
  have nonempty := List.length_pos_iff.mpr (renderFormals_ne_nil formals)
  rw [List.length_append]
  omega

/-- One formal parameter and those after it. -/
theorem reads_formal {bound : Nat} (e : Error) (enough : s.rest.length < bound + 1)
    (ih : ∀ t : Scanner, t.rest.length < bound →
      (Reads (formalParameters bound) t rest names ↔ FormalsSpan t.rest rest t.names names)) :
    Reads (takeUntil? [':'] >>= fun
        | none => failAtTextEnd
        | some name =>
          if name.isEmpty ∨ name.any ['>', ';', '<'].contains then
            throw e
          else do
            typeBounds bound
            formalParameters bound) s rest names ↔
      ∃ (name : Segment [':', '<', '>', ';']) (bounds tail : List Char) (between : List String),
        name.text ≠ [] ∧ s.rest = name.text ++ ':' :: bounds ∧
          BoundsSpan (':' :: bounds) tail s.names between ∧ FormalsSpan tail rest between names := by
  rw [reads_takeUntil? [':'] not_reads_failAtTextEnd]
  have bounded {name bounds : List Char} (named : name ≠ [])
      (split : s.rest = name ++ ':' :: bounds) (offset : Nat) :
      Reads (do typeBounds bound; formalParameters bound)
          { s with rest := ':' :: bounds, offset } rest names ↔
        ∃ tail between, BoundsSpan (':' :: bounds) tail s.names between ∧
          FormalsSpan tail rest between names := by
    have shorter : (':' :: bounds).length < bound := by
      have nonempty := List.length_pos_iff.mpr named
      rw [split, List.length_append] at enough
      omega
    refine reads_then (fun tail between => reads_typeBounds bound shorter) ?_
    intro t span
    exact ih t (Nat.lt_of_le_of_lt span.not_longer shorter)
  constructor
  · rintro ⟨name, c, bounds, stop, split, reads⟩
    rw [List.mem_singleton] at stop
    subst stop
    by_cases legal : name.text.isEmpty = true ∨ name.text.any ['>', ';', '<'].contains = true
    · simp only [if_pos legal] at reads
      exact absurd reads (not_reads_throw _)
    · simp only [if_neg legal] at reads
      obtain ⟨named, plain⟩ := (formalName_iff name.free).mp legal
      obtain ⟨tail, between, spans⟩ := (bounded named split _).mp reads
      exact ⟨⟨name.text, plain⟩, bounds, tail, between, named, split, spans⟩
  · rintro ⟨name, bounds, tail, between, named, split, spans⟩
    have clear : ∀ c ∈ name.text, c ∉ [':'] := by
      intro c inside colon
      exact name.free c inside (List.mem_cons.mpr (.inl (List.mem_singleton.mp colon)))
    have legal := (formalName_iff clear).mpr ⟨named, name.free⟩
    refine ⟨⟨name.text, clear⟩, ':', bounds, List.mem_singleton_self _, split, ?_⟩
    simp only [if_neg legal]
    exact (bounded named split _).mpr ⟨tail, between, spans⟩

theorem reads_formalParameters (bound : Nat) (enough : s.rest.length < bound) :
    Reads (formalParameters bound) s rest names ↔ FormalsSpan s.rest rest s.names names := by
  induction bound generalizing s with
  | zero => exact absurd enough (Nat.not_lt_zero _)
  | succ bound ih =>
      rw [formalParameters]
      refine (reads_bind_ok (a := s) (t := s) (m := get) rfl _).trans (reads_peek?.trans ?_)
      cases starts : s.rest with
      | nil => simp [not_formalsSpan_nil]
      | cons c tail =>
          rw [formalsSpan_cons, List.head?_cons]
          by_cases bracket : c = '>'
          · subst bracket
            constructor
            · rintro ⟨offset, ran⟩
              have taken : outcome (discard next) s = _ := ran
              rw [outcome_discard_next starts] at taken
              cases taken
              exact .inl ⟨rfl, rfl, rfl⟩
            · rintro (⟨-, rfl, rfl⟩ | ⟨name, bounds, after, between, named, split, -⟩)
              · exact ⟨_, outcome_discard_next starts⟩
              · exact absurd (by decide) (name.head_not_mem named split)
          · split
            case h_1 absent => cases absent
            case h_2 same => exact absurd (Option.some.inj same) bracket
            case h_3 =>
              refine (reads_formal _ enough (fun t => ih)).trans ?_
              rw [starts]
              simp [bracket]

/-- What one item reads, followed by the items after it. -/
theorem reads_then_items {bound : Nat} {m : Scan Unit} {P : List Char → List String → Prop}
    (first : ∀ after between, Reads m s after between ↔ P after between)
    (following : ∀ t : Scanner, P t.rest t.names →
      (Reads (items bound) t rest names ↔ rest = [] ∧ SignatureSpan t.rest t.names names)) :
    Reads (m >>= fun _ => items bound) s rest names ↔
      rest = [] ∧ ∃ after between, P after between ∧ SignatureSpan after between names := by
  rw [reads_then (Q := fun after between => rest = [] ∧ SignatureSpan after between names)
    first following]
  constructor
  · rintro ⟨after, between, read, ended, signature⟩
    exact ⟨ended, after, between, read, signature⟩
  · rintro ⟨ended, after, between, read, signature⟩
    exact ⟨after, between, read, ended, signature⟩

theorem reads_items (bound : Nat) (enough : s.rest.length < bound) :
    Reads (items bound) s rest names ↔ rest = [] ∧ SignatureSpan s.rest s.names names := by
  induction bound generalizing s with
  | zero => exact absurd enough (Nat.not_lt_zero _)
  | succ bound ih =>
      rw [items]
      cases starts : s.rest with
      | nil =>
          rw [reads_bind_ok (outcome_next?_nil starts), signatureSpan_nil]
          simp [starts, eq_comm]
      | cons c tail =>
          have within := tail_length_lt starts enough
          rw [reads_bind_ok (outcome_next?_cons starts), signatureSpan_cons]
          by_cases bracket : c = '<'
          · subst bracket
            simp only [typeSpan_cons, List.mem_cons, List.not_mem_nil, Char.reduceEq, if_true,
              false_and, false_or, or_false, true_and, exists_false]
            refine reads_then_items (fun after between => reads_formalParameters bound within) ?_
            intro t span
            exact ih (Nat.lt_trans span.shorter within)
          by_cases typed : c ≠ '(' ∧ c ≠ ')' ∧ c ≠ '^'
          · have unmarked : c ∉ ['(', ')', '^'] := by simpa using typed
            simp only [bracket, typed, unmarked, ne_eq, not_false_eq_true, and_self, if_true, if_false,
              false_and, false_or]
            refine reads_then_items
              (fun after between => (scansTypes bound).type c _ _ after between within) ?_
            intro t span
            exact ih (Nat.lt_of_le_of_lt (Nat.le_of_lt_succ span.shorter) within)
          · have marked : c ∈ ['(', ')', '^'] := by
              by_contra unmarked
              exact typed (by simpa using unmarked)
            have closed (after : List Char) (between : List String) :
                ¬ TypeSpan (c :: tail) after s.names between := by
              simp only [List.mem_cons, List.not_mem_nil, or_false] at marked
              rw [typeSpan_cons]
              rcases marked with rfl | rfl | rfl <;> simp
            simp only [bracket, typed, marked, closed, if_false, true_and, false_and, or_false,
              exists_false]
            exact ih within

end Formals

theorem collect_eq (text : String) (buffer : List String) :
    collect text buffer =
      (outcome (items (text.toList.length + 1)) ⟨text.toList, 0, buffer⟩).map id Scanner.names :=
  rfl

/-- A text is accepted exactly when some signature writes it, and then exactly the names of that
signature are appended to the buffer, in order and with repetitions. -/
theorem collect_eq_ok_iff (text : String) (buffer after : List String) :
    collect text buffer = (.ok (), after) ↔
      ∃ signature : Signature, text = signature.text ∧ after = buffer ++ signature.names := by
  have scanned (rest : List Char) :
      Reads (items (text.toList.length + 1)) ⟨text.toList, 0, buffer⟩ rest after ↔
        rest = [] ∧ SignatureSpan text.toList buffer after :=
    reads_items (text.toList.length + 1) (Nat.lt_succ_self _)
  constructor
  · intro collected
    rw [collect_eq] at collected
    cases ran : outcome (items (text.toList.length + 1)) ⟨text.toList, 0, buffer⟩ with
    | mk answer t =>
        rw [ran] at collected
        cases collected
        obtain ⟨-, signature, written, named⟩ := (scanned t.rest).mp ⟨t.offset, ran⟩
        refine ⟨signature, ?_, named⟩
        rw [Signature.text, ← written, String.ofList_toList]
  · rintro ⟨signature, rfl, rfl⟩
    have written : signature.text.toList = signature.render := String.toList_ofList
    obtain ⟨offset, ran⟩ := (scanned []).mpr ⟨rfl, signature, written, rfl⟩
    rw [collect_eq, ran]
    rfl

end ClassAtlas.Descriptor

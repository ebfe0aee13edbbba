import ClassAtlas.Proofs.Descriptor.Grammar

/-!
Derivations read from the left. Each relation says that a syntax tree writes the text up to a given
rest and takes the names gathered before it to the names after it. Its lemma resolves the relation
by the first character of the text, which is all a scanner ever sees.
-/

namespace ClassAtlas.Descriptor

/-- Some type writes `text` up to `rest` and adds its names to `before`. -/
def TypeSpan (text rest : List Char) (before after : List String) : Prop :=
  ∃ type : TypeTree, text = type.render ++ rest ∧ after = before ++ type.names

/-- The parts after the class `name`, closed by a semicolon. -/
def PartsSpan (name text rest : List Char) (before after : List String) : Prop :=
  ∃ parts : List Part, text = renderParts parts ++ ';' :: rest ∧ after = before ++ partNames name parts

/-- Type arguments, closed by a bracket. -/
def ArgumentsSpan (text rest : List Char) (before after : List String) : Prop :=
  ∃ args : List Argument,
    text = renderArguments args ++ '>' :: rest ∧ after = before ++ argumentNames args

theorem typeSpan_cons (c : Char) (text rest : List Char) (before after : List String) :
    TypeSpan (c :: text) rest before after ↔
      (c ∈ ['B', 'C', 'D', 'F', 'I', 'J', 'S', 'Z', 'V'] ∧ text = rest ∧ after = before) ∨
      (c = '[' ∧ TypeSpan text rest before after) ∨
      (c = 'L' ∧ ∃ (name : Segment [';', '<', '.']) (tail : List Char),
        name.text ≠ [] ∧ text = name.text ++ tail ∧
          PartsSpan name.text tail rest (before ++ [String.ofList name.text]) after) ∨
      (c = 'T' ∧ ∃ name : Segment [';'], text = name.text ++ ';' :: rest ∧ after = before) := by
  constructor
  · rintro ⟨type, written, rfl⟩
    cases type with
    | base b known =>
        simp only [TypeTree.render, List.cons_append, List.nil_append, List.cons.injEq] at written
        obtain ⟨rfl, rfl⟩ := written
        exact .inl ⟨known, rfl, by simp [TypeTree.names]⟩
    | array element =>
        simp only [TypeTree.render, List.cons_append, List.cons.injEq] at written
        exact .inr (.inl ⟨written.1, element, written.2, by rw [TypeTree.names]⟩)
    | classType name named parts =>
        simp only [TypeTree.render, List.cons_append, List.cons.injEq, List.append_assoc,
          List.nil_append] at written
        refine .inr (.inr (.inl ⟨written.1, name, _, named, written.2, parts, rfl, ?_⟩))
        simp [TypeTree.names]
    | typeVariable name =>
        simp only [TypeTree.render, List.cons_append, List.cons.injEq, List.append_assoc,
          List.nil_append] at written
        exact .inr (.inr (.inr ⟨written.1, name, written.2, by simp [TypeTree.names]⟩))
  · rintro (⟨known, rfl, rfl⟩ | ⟨rfl, element, rfl, rfl⟩ |
      ⟨rfl, name, tail, named, rfl, parts, rfl, rfl⟩ | ⟨rfl, name, rfl, rfl⟩)
    · exact ⟨.base c known, by simp [TypeTree.render], by simp [TypeTree.names]⟩
    · exact ⟨.array element, by simp [TypeTree.render], by rw [TypeTree.names]⟩
    · exact ⟨.classType name named parts, by simp [TypeTree.render], by simp [TypeTree.names]⟩
    · exact ⟨.typeVariable name, by simp [TypeTree.render], by simp [TypeTree.names]⟩

theorem not_typeSpan_nil (rest : List Char) (before after : List String) :
    ¬ TypeSpan [] rest before after := by
  rintro ⟨type, written, -⟩
  exact type.render_ne_nil (List.append_eq_nil_iff.mp written.symm).1

theorem partsSpan_cons (name : List Char) (c : Char) (text rest : List Char)
    (before after : List String) :
    PartsSpan name (c :: text) rest before after ↔
      (c = ';' ∧ text = rest ∧ after = before) ∨
      (c = '<' ∧ ∃ tail between, ArgumentsSpan text tail before between ∧
        PartsSpan name tail rest between after) ∨
      (c = '.' ∧ ∃ (suffix : Segment [';', '<', '.']) (tail : List Char),
        text = suffix.text ++ tail ∧
          PartsSpan (name ++ '$' :: suffix.text) tail rest
            (before ++ [String.ofList (name ++ '$' :: suffix.text)]) after) := by
  constructor
  · rintro ⟨parts, written, rfl⟩
    cases parts with
    | nil =>
        simp only [renderParts, List.nil_append, List.cons.injEq] at written
        exact .inl ⟨written.1, written.2, by simp [partNames]⟩
    | cons part parts =>
        cases part with
        | arguments args =>
            simp only [renderParts, Part.render, List.cons_append, List.cons.injEq,
              List.append_assoc, List.nil_append] at written
            refine .inr (.inl ⟨written.1, _, _, ⟨args, written.2, rfl⟩, parts, rfl, ?_⟩)
            simp [partNames]
        | inner suffix =>
            simp only [renderParts, Part.render, List.cons_append, List.cons.injEq,
              List.append_assoc] at written
            refine .inr (.inr ⟨written.1, suffix, _, written.2, parts, rfl, ?_⟩)
            simp [partNames]
  · rintro (⟨rfl, rfl, rfl⟩ | ⟨rfl, _, _, ⟨args, rfl, rfl⟩, parts, rfl, rfl⟩ |
      ⟨rfl, suffix, _, rfl, parts, rfl, rfl⟩)
    · exact ⟨[], by simp [renderParts], by simp [partNames]⟩
    · exact ⟨.arguments args :: parts, by simp [renderParts, Part.render], by simp [partNames]⟩
    · exact ⟨.inner suffix :: parts, by simp [renderParts, Part.render], by simp [partNames]⟩

/-- What follows a class name begins with a character that ends the name. -/
theorem PartsSpan.opens {name text rest : List Char} {before after : List String}
    (span : PartsSpan name text rest before after) :
    ∃ c tail, text = c :: tail ∧ c ∈ [';', '<', '.'] := by
  cases text with
  | nil =>
      obtain ⟨parts, written, -⟩ := span
      simp at written
  | cons c tail =>
      refine ⟨c, tail, rfl, ?_⟩
      rcases (partsSpan_cons ..).mp span with ⟨rfl, -⟩ | ⟨rfl, -⟩ | ⟨rfl, -⟩ <;> decide

theorem argumentsSpan_cons (c : Char) (text rest : List Char) (before after : List String) :
    ArgumentsSpan (c :: text) rest before after ↔
      (c = '>' ∧ text = rest ∧ after = before) ∨
      (c = '*' ∧ ArgumentsSpan text rest before after) ∨
      ((c = '+' ∨ c = '-') ∧ ∃ tail between, TypeSpan text tail before between ∧
        ArgumentsSpan tail rest between after) ∨
      (∃ tail between, TypeSpan (c :: text) tail before between ∧
        ArgumentsSpan tail rest between after) := by
  constructor
  · rintro ⟨args, written, rfl⟩
    cases args with
    | nil =>
        simp only [renderArguments, List.nil_append, List.cons.injEq] at written
        exact .inl ⟨written.1, written.2, by simp [argumentNames]⟩
    | cons argument args =>
        rw [renderArguments, List.append_assoc] at written
        cases argument with
        | wildcard =>
            simp only [Argument.render, List.cons_append, List.nil_append, List.cons.injEq] at written
            exact .inr (.inl ⟨written.1, args, written.2, by simp [argumentNames, Argument.names]⟩)
        | upper type =>
            simp only [Argument.render, List.cons_append, List.cons.injEq] at written
            refine .inr (.inr (.inl ⟨.inl written.1, _, _, ⟨type, written.2, rfl⟩, args, rfl, ?_⟩))
            simp [argumentNames, Argument.names]
        | lower type =>
            simp only [Argument.render, List.cons_append, List.cons.injEq] at written
            refine .inr (.inr (.inl ⟨.inr written.1, _, _, ⟨type, written.2, rfl⟩, args, rfl, ?_⟩))
            simp [argumentNames, Argument.names]
        | exactly type =>
            rw [Argument.render] at written
            refine .inr (.inr (.inr ⟨_, _, ⟨type, written, rfl⟩, args, rfl, ?_⟩))
            simp [argumentNames, Argument.names]
  · rintro (⟨rfl, rfl, rfl⟩ | ⟨rfl, args, rfl, rfl⟩ |
      ⟨rfl | rfl, _, _, ⟨type, rfl, rfl⟩, args, rfl, rfl⟩ |
      ⟨_, _, ⟨type, written, rfl⟩, args, rfl, rfl⟩)
    · exact ⟨[], by simp [renderArguments], by simp [argumentNames]⟩
    · exact ⟨.wildcard :: args, by simp [renderArguments, Argument.render],
        by simp [argumentNames, Argument.names]⟩
    · exact ⟨.upper type :: args, by simp [renderArguments, Argument.render],
        by simp [argumentNames, Argument.names]⟩
    · exact ⟨.lower type :: args, by simp [renderArguments, Argument.render],
        by simp [argumentNames, Argument.names]⟩
    · exact ⟨.exactly type :: args, by simp [renderArguments, Argument.render, written],
        by simp [argumentNames, Argument.names]⟩

theorem not_argumentsSpan_nil (rest : List Char) (before after : List String) :
    ¬ ArgumentsSpan [] rest before after := by
  rintro ⟨args, written, -⟩
  simp at written

theorem opensReference_append {text : List Char} (nonempty : text ≠ []) (more : List Char) :
    OpensReference (text ++ more) ↔ OpensReference text := by
  obtain ⟨c, tail, rfl⟩ := List.exists_cons_of_ne_nil nonempty
  rfl

/-- Whether bounds are told apart is settled by the first character after them. -/
theorem separated_append {after : List Char} (nonempty : after ≠ []) (more : List Char)
    (bounds : List (Option Bound)) :
    Separated bounds (after ++ more) ↔ Separated bounds after := by
  induction bounds with
  | nil => rfl
  | cons bound bounds ih =>
      cases bound with
      | none =>
          have joined : renderBounds bounds ++ after ≠ [] := by simp [nonempty]
          simp only [Separated, ih, ← List.append_assoc, opensReference_append joined]
      | some bound => exact ih

/-- The bounds of a type parameter. They end where no further colon stands. -/
def BoundsSpan (text rest : List Char) (before after : List String) : Prop :=
  ∃ bounds : List (Option Bound), text = renderBounds bounds ++ rest ∧ Separated bounds rest ∧
    rest.head? ≠ some ':' ∧ after = before ++ bounds.flatMap boundNames

theorem boundsSpan_of_no_colon {text : List Char} (ends : text.head? ≠ some ':')
    (rest : List Char) (before after : List String) :
    BoundsSpan text rest before after ↔ text = rest ∧ after = before := by
  constructor
  · rintro ⟨bounds, written, -, -, rfl⟩
    cases bounds with
    | nil => exact ⟨written, by simp⟩
    | cons bound bounds =>
        refine absurd ?_ ends
        cases bound <;> simp [written, renderBound]
  · rintro ⟨rfl, rfl⟩
    exact ⟨[], rfl, trivial, ends, by simp⟩

theorem boundsSpan_colon (text rest : List Char) (before after : List String) :
    BoundsSpan (':' :: text) rest before after ↔
      (OpensReference text ∧ ∃ tail between, TypeSpan text tail before between ∧
        BoundsSpan tail rest between after) ∨
      (¬ OpensReference text ∧ BoundsSpan text rest before after) := by
  constructor
  · rintro ⟨bounds, written, separated, ends, rfl⟩
    cases bounds with
    | nil =>
        have colon : ':' :: text = rest := written
        simp [← colon] at ends
    | cons bound bounds =>
        cases bound with
        | none =>
            simp only [renderBounds_cons, renderBound, List.cons_append, List.nil_append,
              List.cons.injEq, true_and] at written
            subst written
            exact .inr ⟨separated.1, bounds, rfl, separated.2, ends, by simp [boundNames]⟩
        | some bound =>
            simp only [renderBounds_cons, renderBound, List.cons_append, List.append_assoc,
              List.cons.injEq, true_and] at written
            subst written
            refine .inl ⟨(opensReference_append bound.type.render_ne_nil _).mpr bound.reference, _, _,
              ⟨bound.type, rfl, rfl⟩, bounds, rfl, separated, ends, ?_⟩
            simp [boundNames]
  · rintro (⟨opens, _, _, ⟨type, rfl, rfl⟩, bounds, rfl, separated, ends, rfl⟩ |
      ⟨closed, bounds, rfl, separated, ends, rfl⟩)
    · have reference := (opensReference_append type.render_ne_nil _).mp opens
      exact ⟨some ⟨type, reference⟩ :: bounds, by simp [renderBound], separated, ends,
        by simp [boundNames]⟩
    · exact ⟨none :: bounds, by simp [renderBound], ⟨closed, separated⟩, ends,
        by simp [boundNames]⟩

/-- Formal type parameters, closed by a bracket. -/
def FormalsSpan (text rest : List Char) (before after : List String) : Prop :=
  ∃ formals : List Formal, FormalsSeparated formals ∧ text = renderFormals formals ++ rest ∧
    after = before ++ formals.flatMap Formal.names

theorem renderFormals_ne_nil (formals : List Formal) : renderFormals formals ≠ [] := by
  simp [renderFormals]

/-- No list of formal parameters begins with a colon, since parameters have names. -/
theorem head_renderFormals (formals : List Formal) (rest : List Char) :
    (renderFormals formals ++ rest).head? ≠ some ':' := by
  cases formals with
  | nil => simp [renderFormals]
  | cons formal formals =>
      intro colon
      obtain ⟨tail, starts⟩ := List.head?_eq_some_iff.mp colon
      rw [renderFormals_cons, Formal.render, List.append_assoc, List.append_assoc] at starts
      exact formal.name.head_not_mem formal.named starts.symm (by decide)

theorem formalsSpan_cons (c : Char) (text rest : List Char) (before after : List String) :
    FormalsSpan (c :: text) rest before after ↔
      (c = '>' ∧ text = rest ∧ after = before) ∨
      (∃ (name : Segment [':', '<', '>', ';']) (bounds tail : List Char) (between : List String),
        name.text ≠ [] ∧ c :: text = name.text ++ ':' :: bounds ∧
          BoundsSpan (':' :: bounds) tail before between ∧ FormalsSpan tail rest between after) := by
  constructor
  · rintro ⟨formals, separated, written, rfl⟩
    cases formals with
    | nil =>
        simp only [renderFormals, List.flatMap_nil, List.nil_append, List.cons_append,
          List.cons.injEq] at written
        exact .inl ⟨written.1, written.2, by simp⟩
    | cons formal formals =>
        obtain ⟨bound, bounds, listed⟩ := List.exists_cons_of_ne_nil formal.bounded
        obtain ⟨boundText, colon⟩ : ∃ boundText, renderBounds formal.bounds = ':' :: boundText := by
          rw [listed]
          cases bound <;> exact ⟨_, rfl⟩
        refine .inr ⟨formal.name, boundText ++ (renderFormals formals ++ rest),
          renderFormals formals ++ rest, before ++ formal.names, formal.named, ?_, ?_, ?_⟩
        · simp [written, Formal.render, colon]
        · refine ⟨formal.bounds, by simp [colon], ?_, head_renderFormals _ _, rfl⟩
          exact (separated_append (renderFormals_ne_nil formals) rest _).mpr separated.1
        · exact ⟨formals, separated.2, rfl, by simp⟩
  · rintro (⟨rfl, rfl, rfl⟩ | ⟨name, boundText, tail, between, named, written, bounds, formals⟩)
    · exact ⟨[], trivial, by simp [renderFormals], by simp⟩
    · obtain ⟨bounds, spelled, separated, ends, rfl⟩ := bounds
      obtain ⟨formals, separatedRest, rfl, rfl⟩ := formals
      have bounded : bounds ≠ [] := by
        rintro rfl
        have colon : ':' :: boundText = renderFormals formals ++ rest := spelled
        simp [← colon] at ends
      refine ⟨⟨name, named, bounds, bounded⟩ :: formals, ⟨?_, separatedRest⟩, ?_, ?_⟩
      · exact (separated_append (renderFormals_ne_nil formals) rest _).mp separated
      · rw [written, spelled]
        simp [Formal.render]
      · simp [Formal.names]

theorem not_formalsSpan_nil (rest : List Char) (before after : List String) :
    ¬ FormalsSpan [] rest before after := by
  rintro ⟨formals, -, written, -⟩
  exact renderFormals_ne_nil formals (List.append_eq_nil_iff.mp written.symm).1

/-- A whole signature writes `text`. -/
def SignatureSpan (text : List Char) (before after : List String) : Prop :=
  ∃ signature : Signature, text = signature.render ∧ after = before ++ signature.names

theorem signatureSpan_nil (before after : List String) :
    SignatureSpan [] before after ↔ after = before := by
  constructor
  · rintro ⟨signature, written, rfl⟩
    cases signature with
    | nil => simp [Signature.names]
    | cons item items =>
        cases item with
        | single type =>
            simp [Signature.render, Item.render, type.render_ne_nil] at written
        | mark c known => simp [Signature.render, Item.render] at written
        | parameters formals separated => simp [Signature.render, Item.render] at written
  · rintro rfl
    exact ⟨[], rfl, by simp [Signature.names]⟩

theorem signatureSpan_cons (c : Char) (text : List Char) (before after : List String) :
    SignatureSpan (c :: text) before after ↔
      (c ∈ ['(', ')', '^'] ∧ SignatureSpan text before after) ∨
      (c = '<' ∧ ∃ tail between, FormalsSpan text tail before between ∧
        SignatureSpan tail between after) ∨
      (∃ tail between, TypeSpan (c :: text) tail before between ∧
        SignatureSpan tail between after) := by
  constructor
  · rintro ⟨signature, written, rfl⟩
    cases signature with
    | nil => cases written
    | cons item items =>
        have written : c :: text = item.render ++ Signature.render items := written
        cases item with
        | mark d known =>
            simp only [Item.render, List.cons_append, List.nil_append, List.cons.injEq] at written
            refine .inl ⟨written.1 ▸ known, items, written.2, ?_⟩
            simp [Signature.names, Item.names]
        | parameters formals separated =>
            simp only [Item.render, List.cons_append, List.cons.injEq] at written
            refine .inr (.inl ⟨written.1, _, _, ⟨formals, separated, written.2, rfl⟩, items, rfl, ?_⟩)
            simp [Signature.names, Item.names]
        | single type =>
            refine .inr (.inr ⟨_, _, ⟨type, written, rfl⟩, items, rfl, ?_⟩)
            simp [Signature.names, Item.names]
  · rintro (⟨known, items, rfl, rfl⟩ | ⟨rfl, _, _, ⟨formals, separated, rfl, rfl⟩, items, rfl, rfl⟩ |
      ⟨_, _, ⟨type, written, rfl⟩, items, rfl, rfl⟩)
    · exact ⟨.mark c known :: items, rfl, by simp [Signature.names, Item.names]⟩
    · exact ⟨.parameters formals separated :: items, by simp [Signature.render, Item.render],
        by simp [Signature.names, Item.names]⟩
    · exact ⟨.single type :: items, by simp [Signature.render, Item.render, written],
        by simp [Signature.names, Item.names]⟩

end ClassAtlas.Descriptor

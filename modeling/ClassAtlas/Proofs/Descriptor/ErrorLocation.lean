import ClassAtlas.Proofs.Descriptor.Steadiness

/-!
Where a failed scan says that it failed. The end of the text is its length, an unexpected character is
the one that stands at the offset, and an unterminated class type starts where the grammar has room for
a type. Such a place is a signature cut off before a type, with all that is open around it.
-/

namespace ClassAtlas.Descriptor

/-- The parameters can be told apart from each other and from the text `after` them. -/
def FormalsApart : List Formal → List Char → Prop
  | [], _ => True
  | formal :: formals, after =>
    Separated formal.bounds (formals.flatMap Formal.render ++ after) ∧ FormalsApart formals after

/-- A type parameter that has its name and waits for its bounds, after the parameters before it. -/
structure OpenFormal where
  signature : Signature
  formals : List Formal
  name : Segment [':', '<', '>', ';']
  named : name.text ≠ []
  apart : FormalsApart formals name.text

def OpenFormal.render (param : OpenFormal) : List Char :=
  param.signature.render ++ '<' :: (param.formals.flatMap Formal.render ++ param.name.text)

mutual

/-- A place in a signature where a type has to stand next. -/
inductive Hole where
  | item (signature : Signature)
  | bound (param : OpenFormal) (bounds : List (Option Bound)) (separated : Separated bounds [':'])
  | element (array : Hole)
  | argument (owner : OpenClass) (args : List Argument) (sign : List Char)
      (known : sign ∈ [[], ['+'], ['-']])

/-- A class type that has its name, with parts after it and no semicolon yet. -/
inductive OpenClass where
  | mk (start : Hole) (name : Segment [';', '<', '.']) (named : name.text ≠ []) (parts : List Part)

end

mutual

/-- All that stands before the place. -/
def Hole.render : Hole → List Char
  | .item signature => signature.render
  | .bound param bounds _ => param.render ++ (renderBounds bounds ++ [':'])
  | .element array => array.render ++ ['[']
  | .argument owner args sign _ => owner.render ++ '<' :: (renderArguments args ++ sign)

def OpenClass.render : OpenClass → List Char
  | .mk start name _ parts => start.render ++ 'L' :: (name.text ++ renderParts parts)

end

/-- What follows the first character of a class type that has no name, or that is still open where the
text ends. -/
def Unclosed (rest : List Char) : Prop :=
  (∃ c ∈ [';', '<', '.'], rest.head? = some c) ∨
    ∃ (name : Segment [';', '<', '.']) (parts : List Part), rest = name.text ++ renderParts parts

/-- The error is at the place in the text that it names. -/
def Error.Truthful (text : String) : Error → Prop
  | .unexpectedEnd offset => offset = (Text.utf8 text).length
  | .unexpected found offset => (Text.utf8 text)[offset]? = some found
  | .unterminatedClass start => (Text.utf8 text)[start]? = some 'L'.toUInt8 ∧
      ∃ (hole : Hole) (rest : List Char), text.toList = hole.render ++ 'L' :: rest ∧
        start = utf8Length hole.render ∧ Unclosed rest

theorem renderParts_concat (parts : List Part) (part : Part) :
    renderParts (parts ++ [part]) = renderParts parts ++ part.render := by
  induction parts with
  | nil => simp [renderParts]
  | cons first parts ih => simp [renderParts, ih]

theorem renderArguments_concat (args : List Argument) (argument : Argument) :
    renderArguments (args ++ [argument]) = renderArguments args ++ argument.render := by
  induction args with
  | nil => simp [renderArguments]
  | cons first args ih => simp [renderArguments, ih]

theorem separated_concat (bounds : List (Option Bound)) (bound : Option Bound) (after : List Char) :
    Separated (bounds ++ [bound]) after ↔
      Separated bounds (renderBound bound ++ after) ∧ Separated [bound] after := by
  induction bounds with
  | nil => simp [Separated]
  | cons first bounds ih =>
      cases first with
      | none => simp [Separated, ih, renderBounds, and_assoc]
      | some first => exact ih

theorem formalsApart_concat (formals : List Formal) (formal : Formal) (after : List Char) :
    FormalsApart (formals ++ [formal]) after ↔
      FormalsApart formals (formal.render ++ after) ∧ Separated formal.bounds after := by
  induction formals with
  | nil => simp [FormalsApart]
  | cons first formals ih => simp [FormalsApart, ih, and_assoc]

/-- Whether parameters are told apart is settled by the first character after them. -/
theorem formalsApart_append {after : List Char} (nonempty : after ≠ []) (more : List Char)
    (formals : List Formal) :
    FormalsApart formals (after ++ more) ↔ FormalsApart formals after := by
  induction formals with
  | nil => rfl
  | cons formal formals ih =>
      have joined : formals.flatMap Formal.render ++ after ≠ [] := by simp [nonempty]
      simp only [FormalsApart, ih, ← List.append_assoc, separated_append joined]

section Places

variable {text : String} {before : List Char} {s t : Scanner}

theorem length_utf8 (text : String) : (Text.utf8 text).length = utf8Length text.toList := by
  rw [Text.utf8_eq, Indexed.length_flatMap_utf8EncodeChar]

/-- The byte where a character begins. -/
theorem getElem?_utf8 {rest : List Char} (split : text.toList = before ++ rest) :
    (Text.utf8 text)[utf8Length before]? = rest.head?.map leadByte := by
  rw [Text.utf8_eq, split, List.flatMap_append, ← Indexed.length_flatMap_utf8EncodeChar,
    List.getElem?_append_right Nat.le.refl, Nat.sub_self, ← List.head?_eq_getElem?,
    Indexed.head?_flatMap_utf8EncodeChar]

/-- The scanner stands in the text right after `before`. -/
structure StandsAfter (text : String) (before : List Char) (s : Scanner) : Prop where
  split : text.toList = before ++ s.rest
  offset : s.offset = utf8Length before

namespace StandsAfter

theorem beyond (stands : StandsAfter text before s) {taken rest : List Char}
    (starts : s.rest = taken ++ rest) (names : List String) :
    StandsAfter text (before ++ taken) ⟨rest, s.offset + utf8Length taken, names⟩ := by
  constructor
  · rw [stands.split, starts, List.append_assoc]
  · rw [Indexed.utf8Length_append, stands.offset]

theorem after (stands : StandsAfter text before s) {c : Char} {tail : List Char}
    (starts : s.rest = c :: tail) : StandsAfter text (before ++ [c]) (s.after c tail) := by
  have parts : s.rest = [c] ++ tail := starts
  exact stands.beyond parts s.names

/-- A scan that has read a known part of the text leaves the scanner right after it. -/
theorem past {α : Type} {m : Scan α} {a : α} (stands : StandsAfter text before s) (steady : Steady m)
    (ran : outcome m s = (.ok a, t)) {taken : List Char} (read : s.rest = taken ++ t.rest) :
    StandsAfter text (before ++ taken) t := by
  obtain ⟨front, split, moved⟩ := steady.advances s
  rw [ran] at split moved
  obtain rfl : front = taken := List.append_cancel_right (split.symm.trans read)
  constructor
  · rw [stands.split, read, List.append_assoc]
  · rw [Indexed.utf8Length_append, ← stands.offset]
    exact moved

theorem truthful_end (stands : StandsAfter text before s) :
    (Error.unexpectedEnd (s.offset + utf8Length s.rest)).Truthful text := by
  change _ = (Text.utf8 text).length
  rw [length_utf8, stands.split, Indexed.utf8Length_append, stands.offset]

theorem truthful_unexpected (stands : StandsAfter text before s) {c : Char} {tail : List Char}
    (starts : s.rest = c :: tail) : (Error.unexpected (leadByte c) s.offset).Truthful text := by
  change (Text.utf8 text)[s.offset]? = some (leadByte c)
  rw [stands.offset, getElem?_utf8 stands.split, starts]
  rfl

end StandsAfter

theorem truthful_unterminated {hole : Hole} {rest : List Char}
    (split : text.toList = hole.render ++ 'L' :: rest) (unclosed : Unclosed rest) :
    (Error.unterminatedClass (utf8Length hole.render)).Truthful text := by
  refine ⟨?_, hole, rest, split, rfl, unclosed⟩
  rw [getElem?_utf8 split, List.head?_cons, Option.map_some,
    (Indexed.leadByte_eq_iff (by decide)).mpr rfl]

end Places

/-- Whatever error the scan meets from `s` on, it is where it says. -/
def Reports (text : String) (m : Scan Unit) (s : Scanner) : Prop :=
  ∀ e t, outcome m s = (.error e, t) → e.Truthful text

section Steps

variable {text : String} {before : List Char} {s t : Scanner}

theorem Reports.of_outcome {m k : Scan Unit} (same : outcome m s = outcome k t)
    (reports : Reports text k t) : Reports text m s := by
  intro e u failed
  exact reports e u (same ▸ failed)

theorem Reports.of_ok {m : Scan Unit} (ran : outcome m s = (.ok (), t)) : Reports text m s := by
  intro e u failed
  rw [ran] at failed
  cases failed

theorem Reports.throw {e : Error} (truthful : e.Truthful text) :
    Reports text (MonadExcept.throw e) s := by
  intro e' t failed
  cases failed
  exact truthful

theorem Reports.ite {c : Prop} [Decidable c] {yes no : Scan Unit} (first : c → Reports text yes s)
    (second : ¬ c → Reports text no s) : Reports text (if c then yes else no) s := by
  by_cases holds : c
  · rw [if_pos holds]
    exact first holds
  · rw [if_neg holds]
    exact second holds

theorem Reports.bind {m k : Scan Unit} (first : Reports text m s)
    (second : ∀ t, outcome m s = (.ok (), t) → Reports text k t) :
    Reports text (m >>= fun _ => k) s := by
  intro e u failed
  rw [outcome_bind] at failed
  rcases ran : outcome m s with ⟨e' | done, t⟩ <;> rw [ran] at failed
  · cases failed
    exact first e _ ran
  · exact second t ran e u failed

theorem Reports.bind_ok {α : Type} {m : Scan α} {a : α} {f : α → Scan Unit}
    (ran : outcome m s = (.ok a, t)) (reports : Reports text (f a) t) : Reports text (m >>= f) s := by
  refine reports.of_outcome ?_
  rw [outcome_bind, ran]

theorem reports_failAtEnd (stands : StandsAfter text before s) (ended : s.rest = []) :
    Reports text failAtEnd s := by
  have truthful := stands.truthful_end
  rw [ended] at truthful
  exact Reports.throw truthful

theorem reports_failAtTextEnd (stands : StandsAfter text before s) : Reports text failAtTextEnd s :=
  Reports.throw stands.truthful_end

theorem reports_next (stands : StandsAfter text before s) {f : Char × Nat → Scan Unit}
    (step : ∀ c tail, s.rest = c :: tail → Reports text (f (c, s.offset)) (s.after c tail)) :
    Reports text (next >>= f) s := by
  cases starts : s.rest with
  | nil =>
      refine (reports_failAtEnd stands starts).of_outcome ?_
      rw [Indexed.outcome_next_nil starts]
      rfl
  | cons c tail => exact (step c tail starts).of_outcome (Indexed.outcome_next_cons starts f)

theorem reports_takeUntil? (stands : StandsAfter text before s) (stops : List Char)
    {f : Option (List Char) → Scan Unit}
    (absent : (∀ c ∈ s.rest, c ∉ stops) → Reports text (f none) s)
    (found : ∀ (name : Segment stops) (c : Char) (tail : List Char) (t : Scanner), c ∈ stops →
      s.rest = name.text ++ c :: tail → t.rest = c :: tail → StandsAfter text (before ++ name.text) t →
        Reports text (f (some name.text)) t) :
    Reports text (takeUntil? stops >>= f) s := by
  rcases free_or_exists_segment stops s.rest with free | ⟨name, c, tail, stop, split⟩
  · exact .bind_ok (outcome_takeUntil?_none free) (absent free)
  · exact .bind_ok (outcome_takeUntil? name stop split)
      (found name c tail _ stop split rfl (stands.beyond split s.names))

theorem reports_typeVariable (stands : StandsAfter text before s) : Reports text typeVariable s := by
  refine reports_takeUntil? stands [';'] (fun _ => reports_failAtTextEnd stands) ?_
  intro name c tail t stop split starts beyond
  exact .of_ok (outcome_discard_next starts)

end Steps

/-- The readers that call each other. Each is told what stands before it. -/
structure ReportsTypes (text : String) (bound : Nat) : Prop where
  type {s : Scanner} {c : Char} {tail : List Char} (hole : Hole) : StandsAfter text hole.render s →
    s.rest = c :: tail → tail.length < bound → Reports text (typeFrom bound c s.offset) (s.after c tail)
  suffixes {s : Scanner} (start : Hole) (name : Segment [';', '<', '.']) (named : name.text ≠ [])
    (parts : List Part) (full : List Char) :
    StandsAfter text (OpenClass.mk start name named parts).render s → s.rest.length < bound →
      Reports text (classSuffixes bound (utf8Length start.render) full) s
  arguments {s : Scanner} (owner : OpenClass) (args : List Argument) :
    StandsAfter text (owner.render ++ '<' :: renderArguments args) s → s.rest.length < bound →
      Reports text (typeArguments bound) s

section Types

variable {text : String} {bound : Nat} {s t : Scanner} {before : List Char}

/-- A type that has been read, of which the first character had been taken before. -/
theorem StandsAfter.past_type (stands : StandsAfter text before s) {c : Char} {tail : List Char}
    (starts : s.rest = c :: tail) (enough : tail.length < bound)
    (ran : outcome (typeFrom bound c s.offset) (s.after c tail) = (.ok (), t)) :
    t.rest.length ≤ tail.length ∧ ∃ type : TypeTree, s.rest = type.render ++ t.rest ∧
      StandsAfter text (before ++ type.render) t := by
  have span := ((scansTypes bound).type c s.offset (s.after c tail) t.rest t.names enough).mp
    ⟨t.offset, ran⟩
  have shorter := span.shorter
  obtain ⟨type, written, -⟩ := span
  have read : s.rest = type.render ++ t.rest := starts.trans written
  rw [← Indexed.outcome_next_cons starts (fun found => typeFrom bound found.1 found.2)] at ran
  have steady : Steady (next >>= fun found => typeFrom bound found.1 found.2) :=
    Steady.next.bind fun found => (steadyTypes bound).type found.1 found.2
  exact ⟨Nat.le_of_lt_succ shorter, type, read, stands.past steady ran read⟩

/-- A type is read where there is room for one, and then the text after it. -/
theorem ReportsTypes.typeThen (ih : ReportsTypes text bound) (hole : Hole)
    (stands : StandsAfter text hole.render s) {c : Char} {tail : List Char}
    (starts : s.rest = c :: tail) (enough : tail.length < bound) {k : Scan Unit}
    (rest : ∀ (t : Scanner) (type : TypeTree), s.rest = type.render ++ t.rest →
      StandsAfter text (hole.render ++ type.render) t → t.rest.length ≤ tail.length → Reports text k t) :
    Reports text (typeFrom bound c s.offset >>= fun _ => k) (s.after c tail) := by
  refine (ih.type hole stands starts enough).bind fun t ran => ?_
  obtain ⟨short, type, read, past⟩ := stands.past_type starts enough ran
  exact rest t type read past short

/-- A class name that has been read is noted, and what follows it is read. -/
theorem ReportsTypes.named (ih : ReportsTypes text bound) (start : Hole)
    (name : Segment [';', '<', '.']) (named : name.text ≠ []) (parts : List Part) (full : List Char)
    (stands : StandsAfter text (OpenClass.mk start name named parts).render s)
    (enough : s.rest.length < bound) :
    Reports text (addName full >>= fun _ => classSuffixes bound (utf8Length start.render) full) s :=
  .bind_ok (a := ()) rfl (ih.suffixes start name named parts full ⟨stands.split, stands.offset⟩ enough)

theorem ReportsTypes.type_step (ih : ReportsTypes text bound) (hole : Hole)
    (stands : StandsAfter text hole.render s) {c : Char} {tail : List Char}
    (starts : s.rest = c :: tail) (enough : tail.length < bound + 1) :
    Reports text (typeFrom (bound + 1) c s.offset) (s.after c tail) := by
  have beyond := stands.after starts
  rw [typeFrom]
  refine .ite (fun _ => .of_ok rfl) fun _ => .ite (fun array => ?array) fun _ =>
    .ite (fun classType => ?classType) fun _ => .ite (fun _ => reports_typeVariable beyond) fun _ =>
      .throw (stands.truthful_unexpected starts)
  case array =>
    subst array
    refine reports_next beyond fun d more begins => ih.type (.element hole) beyond begins ?_
    rw [show tail = d :: more from begins, List.length_cons] at enough
    omega
  case classType =>
    subst classType
    have split : text.toList = hole.render ++ 'L' :: tail := starts ▸ stands.split
    rw [stands.offset]
    refine reports_takeUntil? beyond nameStops (fun free => ?_) ?_
    · refine .throw (truthful_unterminated split (.inr ⟨⟨tail, free⟩, [], ?_⟩))
      simp [renderParts]
    · intro name d more t stop parts begins past
      cases spelled : name.text with
      | nil =>
          have nameless : tail.head? = some d := by
            rw [show tail = name.text ++ d :: more from parts, spelled]
            rfl
          exact .throw (truthful_unterminated split (.inl ⟨d, stop, nameless⟩))
      | cons first others =>
          have named : name.text ≠ [] := by simp [spelled]
          have opened : StandsAfter text (OpenClass.mk hole name named []).render t := by
            simpa [OpenClass.render, renderParts] using past
          have shorter : t.rest.length < bound := by
            rw [show tail = name.text ++ d :: more from parts, spelled] at enough
            rw [begins]
            simp only [List.length_append, List.length_cons] at enough ⊢
            omega
          exact ih.named hole name named [] _ opened shorter

/-- Type arguments after their opening bracket, and then the parts after them. -/
theorem ReportsTypes.argumentsThen (ih : ReportsTypes text bound) (start : Hole)
    (name : Segment [';', '<', '.']) (named : name.text ≠ []) (parts : List Part) (full : List Char)
    (stands : StandsAfter text ((OpenClass.mk start name named parts).render ++ ['<']) s)
    (enough : s.rest.length < bound) :
    Reports text (typeArguments bound >>= fun _ =>
      classSuffixes bound (utf8Length start.render) full) s := by
  refine (ih.arguments _ [] (by simpa [renderArguments] using stands) enough).bind fun t ran => ?_
  have span := ((scansTypes bound).arguments s t.rest t.names enough).mp ⟨t.offset, ran⟩
  have shorter := Nat.lt_trans span.shorter enough
  obtain ⟨args, written, -⟩ := span
  have read : s.rest = (renderArguments args ++ ['>']) ++ t.rest := by
    simpa using written
  have past := stands.past (steadyTypes bound).arguments ran read
  refine ih.suffixes start name named (parts ++ [.arguments args]) full ?_ shorter
  simpa [OpenClass.render, renderParts_concat, Part.render] using past

theorem ReportsTypes.suffixes_step (ih : ReportsTypes text bound) (start : Hole)
    (name : Segment [';', '<', '.']) (named : name.text ≠ []) (parts : List Part) (full : List Char)
    (stands : StandsAfter text (OpenClass.mk start name named parts).render s)
    (enough : s.rest.length < bound + 1) :
    Reports text (classSuffixes (bound + 1) (utf8Length start.render) full) s := by
  rw [classSuffixes]
  cases starts : s.rest with
  | nil =>
      refine .bind_ok (outcome_next?_nil starts) (.throw ?_)
      have split := stands.split
      rw [starts, List.append_nil, OpenClass.render] at split
      exact truthful_unterminated split (.inr ⟨name, parts, rfl⟩)
  | cons c tail =>
      have within := tail_length_lt starts enough
      have beyond := stands.after starts
      refine .bind_ok (outcome_next?_cons starts) ?_
      refine .ite (fun _ => .of_ok rfl) fun _ => .ite (fun bracket => ?bracket) fun _ =>
        .ite (fun dot => ?dot) fun _ => .throw (stands.truthful_unexpected starts)
      case bracket =>
        subst bracket
        exact ih.argumentsThen start name named parts full beyond within
      case dot =>
        subst dot
        refine reports_takeUntil? beyond nameStops (fun free => .throw ?_) ?_
        · have split : text.toList =
              start.render ++ 'L' :: (name.text ++ (renderParts parts ++ '.' :: tail)) := by
            simpa [starts, OpenClass.render] using stands.split
          refine truthful_unterminated split (.inr ⟨name, parts ++ [.inner ⟨tail, free⟩], ?_⟩)
          simp [renderParts_concat, Part.render]
        · intro inner d more t stop written begins past
          have shorter : t.rest.length < bound := by
            rw [show tail = inner.text ++ d :: more from written, List.length_append] at within
            rw [begins]
            omega
          have opened : StandsAfter text (OpenClass.mk start name named (parts ++ [.inner inner])).render
              t := by
            simpa [OpenClass.render, renderParts_concat, Part.render] using past
          exact ih.named start name named _ _ opened shorter

theorem ReportsTypes.arguments_step (ih : ReportsTypes text bound) (owner : OpenClass)
    (args : List Argument) (stands : StandsAfter text (owner.render ++ '<' :: renderArguments args) s)
    (enough : s.rest.length < bound + 1) : Reports text (typeArguments (bound + 1)) s := by
  rw [typeArguments]
  refine reports_next stands fun c tail starts => ?_
  have within := tail_length_lt starts enough
  have beyond := stands.after starts
  -- Whatever the argument is, the ones after it are read with it among those before them.
  have more (t : Scanner) (argument : Argument)
      (past : StandsAfter text (owner.render ++ '<' :: (renderArguments args ++ argument.render)) t)
      (short : t.rest.length < bound) : Reports text (typeArguments bound) t := by
    refine ih.arguments owner (args ++ [argument]) ?_ short
    rwa [renderArguments_concat]
  refine .ite (fun _ => .of_ok rfl) fun _ => .ite (fun wildcard => ?wildcard) fun _ =>
    .ite (fun variance => ?variance) fun _ => ?exactly
  case wildcard =>
    subst wildcard
    exact more _ .wildcard (by simpa [Argument.render] using beyond) within
  case variance =>
    have known : [c] ∈ [[], ['+'], ['-']] := by
      rcases variance with rfl | rfl <;> simp
    have stands : StandsAfter text (Hole.argument owner args [c] known).render (s.after c tail) := by
      simpa [Hole.render] using beyond
    refine reports_next stands fun first rest begins => ?_
    have shorter : rest.length < bound := by
      rw [show tail = first :: rest from begins, List.length_cons] at within
      omega
    refine ih.typeThen _ stands begins shorter fun t type read past short => ?_
    have remaining := Nat.lt_of_le_of_lt short shorter
    rcases variance with rfl | rfl
    · exact more t (.upper type) (by simpa [Hole.render, Argument.render] using past) remaining
    · exact more t (.lower type) (by simpa [Hole.render, Argument.render] using past) remaining
  case exactly =>
    have known : [] ∈ [[], ['+'], ['-']] := by simp
    have stands : StandsAfter text (Hole.argument owner args [] known).render s := by
      simpa [Hole.render] using stands
    refine ih.typeThen _ stands starts within fun t type read past short => ?_
    exact more t (.exactly type) (by simpa [Hole.render, Argument.render] using past)
      (Nat.lt_of_le_of_lt short within)

end Types

theorem reportsTypes (text : String) (bound : Nat) : ReportsTypes text bound := by
  induction bound with
  | zero =>
      exact ⟨fun _ _ _ short => absurd short (Nat.not_lt_zero _),
        fun _ _ _ _ _ _ short => absurd short (Nat.not_lt_zero _),
        fun _ _ _ short => absurd short (Nat.not_lt_zero _)⟩
  | succ bound ih =>
      exact ⟨fun hole stands => ih.type_step hole stands, ih.suffixes_step, ih.arguments_step⟩

section Formals

variable {text : String} {s : Scanner}

theorem reports_typeBounds (param : OpenFormal) (bounds : List (Option Bound)) (bound : Nat)
    (separated : Separated bounds s.rest)
    (stands : StandsAfter text (param.render ++ renderBounds bounds) s)
    (enough : s.rest.length < bound) : Reports text (typeBounds bound) s := by
  induction bound generalizing s bounds with
  | zero => exact absurd enough (Nat.not_lt_zero _)
  | succ bound ih =>
      rw [typeBounds]
      refine .bind_ok (t := s) rfl (.ite (fun colon => ?_) fun _ => .of_ok rfl)
      obtain ⟨tail, starts⟩ := List.head?_eq_some_iff.mp colon
      have within := tail_length_lt starts enough
      have beyond := stands.after starts
      rw [starts] at separated
      refine .bind_ok (outcome_discard_next starts) (.bind_ok (t := s.after ':' tail) rfl ?_)
      refine .ite (fun opens => ?given) fun closed => ?omitted
      case given =>
        have reference := (any_contains_iff_opensReference tail).mp opens
        have apart : Separated bounds [':'] :=
          (separated_append (List.cons_ne_nil ':' []) tail bounds).mp separated
        have room : StandsAfter text (Hole.bound param bounds apart).render (s.after ':' tail) := by
          simpa [Hole.render] using beyond
        refine reports_next room fun first rest begins => ?_
        have shorter : rest.length < bound := by
          rw [show tail = first :: rest from begins, List.length_cons] at within
          omega
        refine (reportsTypes text bound).typeThen _ room begins shorter fun t type read past short => ?_
        have read : tail = type.render ++ t.rest := read
        rw [read] at reference separated
        have given : OpensReference type.render :=
          (opensReference_append type.render_ne_nil _).mp reference
        refine ih (bounds ++ [some ⟨type, given⟩]) ?_ ?_ (Nat.lt_of_le_of_lt short shorter)
        · exact (separated_concat ..).mpr ⟨separated, trivial⟩
        · simpa [Hole.render, renderBounds, renderBound] using past
      case omitted =>
        have none : ¬ OpensReference tail := mt (any_contains_iff_opensReference tail).mpr closed
        refine ih (bounds ++ [Option.none]) ?_ ?_ within
        · exact (separated_concat ..).mpr ⟨separated, none, trivial⟩
        · simpa [renderBounds, renderBound] using beyond

/-- The bounds of a parameter that has its name, and then the parameters after it. -/
theorem reports_boundsThen (signature : Signature) (formals : List Formal) {bound : Nat}
    (name : Segment [':', '<', '>', ';']) (named : name.text ≠ []) {tail : List Char}
    (starts : s.rest = ':' :: tail) (apart : FormalsApart formals (name.text ++ s.rest))
    (stands : StandsAfter text
      ((signature.render ++ '<' :: formals.flatMap Formal.render) ++ name.text) s)
    (enough : s.rest.length < bound) {k : Scan Unit}
    (rest : ∀ (formals : List Formal) (t : Scanner), FormalsApart formals t.rest →
      StandsAfter text (signature.render ++ '<' :: formals.flatMap Formal.render) t →
        t.rest.length < bound → Reports text k t) :
    Reports text (typeBounds bound >>= fun _ => k) s := by
  let param : OpenFormal :=
    ⟨signature, formals, name, named, (formalsApart_append named _ _).mp apart⟩
  have opened : StandsAfter text (param.render ++ renderBounds []) s := by
    simpa [param, OpenFormal.render, renderBounds] using stands
  refine (reports_typeBounds param [] bound trivial opened enough).bind fun t ran => ?_
  have span := (reads_typeBounds bound enough).mp ⟨t.offset, ran⟩
  have shorter := Nat.lt_of_le_of_lt span.not_longer enough
  obtain ⟨bounds, written, separated, ends, -⟩ := span
  -- The name is followed by a colon, so at least one bound has been read.
  have bounded : bounds ≠ [] := by
    rintro rfl
    have same : s.rest = t.rest := written
    simp [← same, starts] at ends
  have past := stands.past (steady_typeBounds bound) ran written
  refine rest (formals ++ [⟨name, named, bounds, bounded⟩]) t ?_ ?_ shorter
  · rw [written] at apart
    exact (formalsApart_concat ..).mpr ⟨by simpa [Formal.render] using apart, separated⟩
  · simpa [Formal.render] using past

theorem reports_formalParameters (signature : Signature) (formals : List Formal) (bound : Nat)
    (apart : FormalsApart formals s.rest)
    (stands : StandsAfter text (signature.render ++ '<' :: formals.flatMap Formal.render) s)
    (enough : s.rest.length < bound) : Reports text (formalParameters bound) s := by
  induction bound generalizing s formals with
  | zero => exact absurd enough (Nat.not_lt_zero _)
  | succ bound ih =>
      rw [formalParameters]
      refine .bind_ok (t := s) (a := s) rfl (.bind_ok (t := s) rfl ?_)
      cases starts : s.rest with
      | nil => exact reports_failAtEnd stands starts
      | cons c tail =>
          by_cases bracket : c = '>'
          · subst bracket
            exact .of_ok (outcome_discard_next starts)
          rw [List.head?_cons]
          split
          case h_1 absent => cases absent
          case h_2 same => exact absurd (Option.some.inj same) bracket
          case h_3 same =>
            cases same
            refine reports_takeUntil? stands [':'] (fun _ => reports_failAtTextEnd stands) ?_
            intro name d more t stop split begins past
            obtain rfl := List.mem_singleton.mp stop
            refine .ite (fun _ => .throw (stands.truthful_unexpected starts)) fun legal => ?_
            obtain ⟨named, plain⟩ := (formalName_iff name.free).mp legal
            rw [split] at apart enough
            have shorter : t.rest.length < bound := by
              have nonempty := List.length_pos_iff.mpr named
              rw [begins]
              rw [List.length_append] at enough
              omega
            rw [← begins] at apart
            exact reports_boundsThen signature formals ⟨name.text, plain⟩ named begins apart past shorter
              fun formals u apart stands remaining => ih formals apart stands remaining

theorem reports_items (signature : Signature) (bound : Nat)
    (stands : StandsAfter text signature.render s) (enough : s.rest.length < bound) :
    Reports text (items bound) s := by
  induction bound generalizing s signature with
  | zero => exact absurd enough (Nat.not_lt_zero _)
  | succ bound ih =>
      rw [items]
      cases starts : s.rest with
      | nil => exact .bind_ok (outcome_next?_nil starts) (.of_ok rfl)
      | cons c tail =>
          have within := tail_length_lt starts enough
          have beyond := stands.after starts
          have more (t : Scanner) (item : Item)
              (past : StandsAfter text (signature.render ++ item.render) t)
              (short : t.rest.length < bound) : Reports text (items bound) t := by
            refine ih (signature ++ [item]) ?_ short
            simpa [Signature.render] using past
          refine .bind_ok (outcome_next?_cons starts) ?_
          refine .ite (fun bracket => ?parameters) fun _ => .ite (fun _ => ?single) fun marked => ?mark
          case parameters =>
            subst bracket
            have opened : StandsAfter text (signature.render ++ '<' :: [].flatMap Formal.render)
                (s.after '<' tail) := by simpa using beyond
            refine (reports_formalParameters signature [] bound trivial opened within).bind
              fun t ran => ?_
            have span := (reads_formalParameters bound within).mp ⟨t.offset, ran⟩
            have shorter := Nat.lt_trans span.shorter within
            obtain ⟨formals, separated, written, -⟩ := span
            have past := beyond.past (steady_formalParameters bound) ran written
            exact more t (.parameters formals separated) (by simpa [Item.render] using past) shorter
          case single =>
            refine (reportsTypes text bound).typeThen (.item signature) stands starts within
              fun t type read past short => ?_
            exact more t (.single type) past (Nat.lt_of_le_of_lt short within)
          case mark =>
            have known : c ∈ ['(', ')', '^'] := by
              by_contra unmarked
              exact marked (by simpa using unmarked)
            exact more _ (.mark c known) beyond within

end Formals

/-- The answer does not depend on the buffer and the names go behind it, also those that are met before
a failure; and every failure is located where it is. -/
theorem collect_reports (text : String) (buffer : List String) :
    collect text buffer = ((collect text []).1, buffer ++ (collect text []).2) ∧
      ∀ e, (collect text buffer).1 = .error e → e.Truthful text := by
  constructor
  · have appended := (steady_items (text.toList.length + 1)).appends buffer ⟨text.toList, 0, []⟩
    rw [Scanner.behind, List.append_nil] at appended
    rw [collect_eq, appended]
    rfl
  · intro e failed
    have stands : StandsAfter text (Signature.render []) ⟨text.toList, 0, buffer⟩ := ⟨rfl, rfl⟩
    rw [collect_eq] at failed
    exact reports_items [] _ stands (Nat.lt_succ_self _) e _ (Prod.ext failed rfl)

/-- The class type inside the type arguments is the one that is open, not the one around it. -/
theorem collect_reports_inner_class :
    collect "Lé<[Lx" ["a"] = (.error (.unterminatedClass 5), ["a", "é"]) ∧
      (collect "Lé<[Lx" ["a"]).2 = ["a"] ++ (collect "Lé<[Lx" []).2 ∧
      (Error.unterminatedClass 5).Truthful "Lé<[Lx" := by
  have failed : collect "Lé<[Lx" ["a"] = (.error (.unterminatedClass 5), ["a", "é"]) := by
    decide +kernel
  obtain ⟨appended, located⟩ := collect_reports "Lé<[Lx" ["a"]
  exact ⟨failed, congrArg Prod.snd appended, located _ (congrArg Prod.fst failed)⟩

end ClassAtlas.Descriptor

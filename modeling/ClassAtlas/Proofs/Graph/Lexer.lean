import Mathlib.Data.List.Basic

/-!
The tokens of a graph description: ids with and without quotes, edge operators and punctuation, with
blanks and comments between them. Ids in angle brackets and lines that begin with a number sign are
refused. In a quoted id a backslash keeps a quote after it from ending the id, and has no other use.
Main statement: a text put in quotes as it is is read back exactly if it has no quote and no backslash
at its end, whatever stands after it.
-/

namespace ClassAtlas.Graph.Lexer

inductive Token where
  /-- A keyword, a number or an id without quotes. -/
  | word (text : String)
  | quoted (text : String)
  | arrow
  | line
  | symbol (c : Char)
  deriving Repr, DecidableEq

/-- What the last characters were part of; `read` is what an id holds so far. -/
inductive Mode where
  | between
  | word (read : List Char)
  | quoted (read : List Char)
  /-- After a backslash in a quoted id. -/
  | escape (read : List Char)
  | dash
  | slash
  | lineComment
  | blockComment
  | star
  deriving Repr, DecidableEq

def isBlank (c : Char) : Bool :=
  [' ', '\t', '\n', '\r'].contains c

def isSymbol (c : Char) : Bool :=
  ['\x7b', '\x7d', '[', ']', '=', ';', ',', ':', '+'].contains c

def isWordChar (c : Char) : Bool :=
  c.isAlphanum || c == '_' || c == '.' || 128 ≤ c.toNat

/-- Reads a character that stands between two tokens. -/
def opening (c : Char) : Option (Mode × List Token) :=
  if isBlank c then some (.between, [])
  else if isSymbol c then some (.between, [.symbol c])
  else if isWordChar c then some (.word [c], [])
  else if c = '"' then some (.quoted [], [])
  else if c = '-' then some (.dash, [])
  else if c = '/' then some (.slash, [])
  else none

/-- Reads a character; gives the tokens that end with it. -/
def step (mode : Mode) (c : Char) : Option (Mode × List Token) :=
  match mode with
  | .between => opening c
  | .word read =>
    if isWordChar c then some (.word (read ++ [c]), [])
    else (opening c).map fun (mode, tokens) => (mode, .word (String.ofList read) :: tokens)
  | .quoted read =>
    if c = '"' then some (.between, [.quoted (String.ofList read)])
    else if c = '\\' then some (.escape read, [])
    else some (.quoted (read ++ [c]), [])
  | .escape read =>
    if c = '"' then some (.quoted (read ++ ['"']), [])
    else if c = '\\' then some (.escape (read ++ ['\\']), [])
    else some (.quoted (read ++ ['\\', c]), [])
  | .dash =>
    if c = '>' then some (.between, [.arrow])
    else if c = '-' then some (.between, [.line])
    else if c.isDigit || c == '.' then some (.word ['-', c], [])
    else none
  | .slash =>
    if c = '/' then some (.lineComment, []) else if c = '*' then some (.blockComment, []) else none
  | .lineComment => some (if c = '\n' then .between else .lineComment, [])
  | .blockComment => some (if c = '*' then .star else .blockComment, [])
  | .star =>
    some (if c = '/' then .between else if c = '*' then .star else .blockComment, [])

def scan : Mode → List Char → Option (Mode × List Token)
  | mode, [] => some (mode, [])
  | mode, c :: rest =>
    (step mode c).bind fun now => (scan now.1 rest).map fun later => (later.1, now.2 ++ later.2)

/-- What the end of the text adds; a text does not end within quotes. -/
def ending : Mode → Option (List Token)
  | .between => some []
  | .word read => some [.word (String.ofList read)]
  | .lineComment => some []
  | _ => none

def tokensFrom (mode : Mode) (chars : List Char) : Option (List Token) :=
  (scan mode chars).bind fun read => (ending read.1).map (read.2 ++ ·)

def tokens? (text : String) : Option (List Token) :=
  tokensFrom .between text.toList

section Scanning

variable {mode next : Mode} {c : Char} {front back : List Char} {first tokens : List Token}

theorem scan_cons_of_step (now : step mode c = some (next, first)) (rest : List Char) :
    scan mode (c :: rest) = (scan next rest).map fun r => (r.1, first ++ r.2) := by
  rw [scan, now, Option.bind_some]

theorem scan_append (mode : Mode) (front back : List Char) :
    scan mode (front ++ back) = (scan mode front).bind fun r =>
      (scan r.1 back).map fun s => (s.1, r.2 ++ s.2) := by
  induction front generalizing mode with
  | nil =>
      simp [scan]
  | cons c front ih =>
      cases now : step mode c with
      | none => simp [scan, now]
      | some next =>
          rw [List.cons_append, scan_cons_of_step now, scan_cons_of_step now, ih]
          cases scan next.1 front with
          | none => rfl
          | some middle =>
              simp [Function.comp_def]

theorem tokensFrom_append (read : scan mode front = some (next, first)) :
    tokensFrom mode (front ++ back) = (tokensFrom next back).map (first ++ ·) := by
  unfold tokensFrom
  rw [scan_append, read, Option.bind_some]
  cases scan next back with
  | none => rfl
  | some last => simp [Function.comp_def]

theorem tokensFrom_cons (now : step mode c = some (next, first)) :
    tokensFrom mode (c :: back) = (tokensFrom next back).map (first ++ ·) := by
  have read : scan mode [c] = some (next, first) := by
    rw [scan_cons_of_step now]
    simp [scan]
  exact tokensFrom_append read

theorem tokensFrom_cons_silent (now : step mode c = some (next, [])) :
    tokensFrom mode (c :: back) = tokensFrom next back := by
  rw [tokensFrom_cons now]
  simp

end Scanning

/-- A text that can stand in quotes as it is. -/
def Quotable (text : String) : Prop :=
  '"' ∉ text.toList ∧ text.toList.getLast? ≠ some '\\'

instance (text : String) : Decidable (Quotable text) :=
  inferInstanceAs (Decidable (_ ∧ _))

theorem quotable_append {front back : String} (quotable : Quotable front) :
    Quotable (front ++ back) ↔ Quotable back := by
  obtain ⟨free, ends⟩ := quotable
  unfold Quotable
  rw [String.toList_append, List.mem_append, or_iff_right free, List.getLast?_append]
  cases back.toList.getLast? with
  | none => simp [ends]
  | some c => simp

def quote (text : String) : String :=
  "\"" ++ text ++ "\""

theorem toList_quote (text : String) : (quote text).toList = '"' :: text.toList ++ ['"'] := by
  simp [quote]

section Quoted

/-- Within quotes, after a text that has no quote. -/
def within (read : List Char) : Mode :=
  if read.getLast? = some '\\' then .escape read.dropLast else .quoted read

theorem step_within (read : List Char) {c : Char} (other : c ≠ '"') :
    step (within read) c = some (within (read ++ [c]), []) := by
  by_cases ends : read.getLast? = some '\\'
  · obtain ⟨front, rfl⟩ := List.getLast?_eq_some_iff.mp ends
    by_cases again : c = '\\' <;> simp [within, step, other, again]
  · by_cases opens : c = '\\' <;> simp [within, step, other, ends, opens]

theorem scan_within (read : List Char) {text : List Char} (free : '"' ∉ text) :
    scan (within read) text = some (within (read ++ text), []) := by
  induction text generalizing read with
  | nil => simp [scan]
  | cons c text ih =>
      have other : c ≠ '"' := fun same => free (same ▸ List.mem_cons_self)
      have rest : '"' ∉ text := fun inside => free (List.mem_cons_of_mem c inside)
      rw [scan_cons_of_step (step_within read other), ih _ rest]
      simp

theorem step_within_quote {read : List Char} (ends : read.getLast? ≠ some '\\') :
    step (within read) '"' = some (.between, [.quoted (String.ofList read)]) := by
  simp [within, step, ends]

theorem step_within_escaped (read : List Char) :
    step (within (read ++ ['\\'])) '"' = some (.quoted (read ++ ['"']), []) := by
  simp [within, step]

def Mode.Inside (mode : Mode) (read : List Char) : Prop :=
  mode = .quoted read ∨ mode = .escape read

theorem Mode.Inside.step {mode : Mode} {read : List Char} (inside : mode.Inside read) (c : Char) :
    step mode c = some (.between, [.quoted (String.ofList read)]) ∨
      ∃ next added, step mode c = some (next, []) ∧ next.Inside (read ++ added) := by
  obtain rfl | rfl := inside
  · by_cases closes : c = '"'
    · exact .inl (by simp [Lexer.step, closes])
    · by_cases escapes : c = '\\'
      · exact .inr ⟨.escape read, [], by simp [Lexer.step, escapes], .inr (by simp)⟩
      · exact .inr ⟨_, [c], by simp [Lexer.step, closes, escapes], .inl rfl⟩
  · by_cases kept : c = '"'
    · exact .inr ⟨_, ['"'], by simp [Lexer.step, kept], .inl rfl⟩
    · by_cases escapes : c = '\\'
      · exact .inr ⟨_, ['\\'], by simp [Lexer.step, escapes], .inr rfl⟩
      · exact .inr ⟨_, ['\\', c], by simp [Lexer.step, kept, escapes], .inl rfl⟩

/-- An id that is begun comes first, and keeps what is read of it. -/
theorem Mode.Inside.first_token {mode : Mode} {read rest : List Char} {found : List Token}
    (inside : mode.Inside read) (result : tokensFrom mode rest = some found) :
    ∃ more others, found = .quoted (String.ofList (read ++ more)) :: others := by
  induction rest generalizing mode read with
  | nil =>
      obtain rfl | rfl := inside <;> cases result
  | cons c rest ih =>
      obtain closes | ⟨next, added, onward, inside⟩ := inside.step c
      · rw [tokensFrom_cons closes] at result
        obtain ⟨others, _, rfl⟩ := Option.map_eq_some_iff.mp result
        exact ⟨[], others, by simp⟩
      · rw [tokensFrom_cons_silent onward] at result
        obtain ⟨more, others, rfl⟩ := ih inside result
        exact ⟨added ++ more, others, by simp⟩

/-- The first quote after the opening one ends the id or, after a backslash, is part of it. -/
theorem first_quote {text rest : List Char} {id : String} {others : List Token} (free : '"' ∉ text)
    (result : tokensFrom .between ('"' :: text ++ '"' :: rest) = some (.quoted id :: others)) :
    (text.getLast? ≠ some '\\' ∧ id.toList = text) ∨
      ∃ front more, text = front ++ ['\\'] ∧ id.toList = front ++ '"' :: more := by
  have opened : step .between '"' = some (within [], []) := rfl
  rw [List.cons_append, tokensFrom_cons_silent opened, tokensFrom_append (scan_within [] free)] at result
  simp only [List.nil_append, Option.map_id'] at result
  by_cases ends : text.getLast? = some '\\'
  · obtain ⟨front, rfl⟩ := List.getLast?_eq_some_iff.mp ends
    have inside : (Mode.quoted (front ++ ['"'])).Inside (front ++ ['"']) := .inl rfl
    rw [tokensFrom_cons_silent (step_within_escaped front)] at result
    obtain ⟨more, others, same⟩ := inside.first_token result
    cases same
    exact .inr ⟨front, more, rfl, by simp⟩
  · rw [tokensFrom_cons (step_within_quote ends)] at result
    obtain ⟨others, _, same⟩ := Option.map_eq_some_iff.mp result
    cases same
    exact .inl ⟨ends, String.toList_ofList⟩

theorem quotable_of_tokensFrom {text : String} {rest : List Char} {others : List Token}
    (result : tokensFrom .between ('"' :: text.toList ++ '"' :: rest) =
      some (.quoted text :: others)) : Quotable text := by
  by_cases quote : '"' ∈ text.toList
  · -- the id is not the text before its first quote, nor does it go on from there with another one
    exfalso
    obtain ⟨before, after, parts, free⟩ := List.eq_append_cons_of_mem quote
    have first : '"' :: text.toList ++ '"' :: rest =
        '"' :: before ++ '"' :: (after ++ '"' :: rest) := by
      simp [parts]
    rw [first] at result
    obtain ⟨_, same⟩ | ⟨front, more, rfl, same⟩ := first_quote free result
    · simp [parts] at same
    · simp [parts] at same
  · obtain ⟨ends, _⟩ | ⟨front, more, escaped, same⟩ := first_quote quote result
    · exact ⟨quote, ends⟩
    · simp [escaped] at same

end Quoted

/-- `text` is read as `tokens` exactly if `P`: if so it ends between two tokens, and if not no text that
goes on from it begins with these tokens. -/
structure ReadsIff (text : String) (tokens : List Token) (P : Prop) : Prop where
  scan_eq : P → scan .between text.toList = some (.between, tokens)
  holds : ∀ rest found, tokensFrom .between (text.toList ++ rest) = some found → tokens <+: found → P

namespace ReadsIff

variable {front back text : String} {tokens more : List Token} {P Q : Prop}

theorem append (first : ReadsIff front tokens P) (second : P → ReadsIff back more Q) :
    ReadsIff (front ++ back) (tokens ++ more) (P ∧ Q) where
  scan_eq := by
    intro both
    obtain ⟨p, q⟩ := both
    rw [String.toList_append, scan_append, first.scan_eq p, Option.bind_some,
      (second p).scan_eq q, Option.map_some]
  holds := by
    intro rest found result begins
    rw [String.toList_append, List.append_assoc] at result
    have p : P := first.holds _ found result ((List.prefix_append ..).trans begins)
    rw [tokensFrom_append (first.scan_eq p)] at result
    obtain ⟨others, remaining, rfl⟩ := Option.map_eq_some_iff.mp result
    exact ⟨p, (second p).holds rest others remaining ((List.prefix_append_right_inj _).mp begins)⟩

theorem fixed (read : scan .between text.toList = some (.between, tokens)) :
    ReadsIff text tokens True where
  scan_eq _ := read
  holds _ _ _ _ := trivial

theorem empty : ReadsIff "" [] True :=
  fixed rfl

theorem congr (reads : ReadsIff text tokens P) (same : P ↔ Q) : ReadsIff text tokens Q :=
  propext same ▸ reads

/-- The parts of a text can be put together in another way. -/
theorem regroup (reads : ReadsIff text tokens P) (sameChars : front.toList = text.toList)
    (sameTokens : more = tokens) (condition : P ↔ Q) : ReadsIff front more Q := by
  rw [String.toList_inj.mp sameChars, sameTokens]
  exact reads.congr condition

theorem tokens?_eq_some_iff (reads : ReadsIff text tokens P) : tokens? text = some tokens ↔ P := by
  constructor
  · intro result
    apply reads.holds [] tokens _ (List.prefix_refl tokens)
    rw [List.append_nil]
    exact result
  · intro p
    simp [tokens?, tokensFrom, reads.scan_eq p, ending]

theorem quoted (text : String) : ReadsIff (quote text) [.quoted text] (Quotable text) where
  scan_eq := by
    intro ⟨free, ends⟩
    have opened : step .between '"' = some (within [], []) := rfl
    rw [toList_quote, List.cons_append, scan_cons_of_step opened, scan_append, scan_within [] free,
      List.nil_append, Option.bind_some, scan_cons_of_step (step_within_quote ends)]
    simp [scan]
  holds := by
    intro rest found result begins
    obtain ⟨others, rfl⟩ := begins
    rw [toList_quote, List.append_assoc] at result
    exact quotable_of_tokensFrom result

theorem append_fixed (reads : ReadsIff text tokens P) (back : String) (more : List Token)
    (read : scan .between back.toList = some (.between, more)) :
    ReadsIff (text ++ back) (tokens ++ more) P :=
  (reads.append fun _ => fixed read).congr (and_iff_left trivial)

theorem append_quoted (reads : ReadsIff text tokens P) (id : String) :
    ReadsIff (text ++ quote id) (tokens ++ [.quoted id]) (P ∧ Quotable id) :=
  reads.append fun _ => quoted id

theorem join {α : Type} {items : List α} {f : α → String} {g : α → List Token} {R : α → Prop}
    (each : ∀ x ∈ items, ReadsIff (f x) (g x) (R x)) :
    ReadsIff (String.join (items.map f)) (items.flatMap g) (∀ x ∈ items, R x) := by
  induction items with
  | nil => exact empty.congr (by simp)
  | cons x items ih =>
      have rest := ih fun y member => each y (List.mem_cons_of_mem x member)
      rw [List.map_cons, String.join_cons, List.flatMap_cons]
      apply ((each x List.mem_cons_self).append fun _ => rest).congr
      rw [List.forall_mem_cons]

end ReadsIff

end ClassAtlas.Graph.Lexer

import ClassAtlas.Proofs.Checked
import ClassAtlas.Proofs.Descriptor.Acceptance
import ClassAtlas.Proofs.Text.Utf8

/-!
Descriptors by byte position. The readers compare single bytes and cut names out of the text, and a
cut has to fall between characters. All bytes that they compare with are below 128, so a position
where they go on is always the start of a character.
-/

namespace ClassAtlas.Descriptor.Indexed

open Checked

/-- The position of the next byte, and the names met so far. -/
structure Progress where
  pos : Nat
  names : List String

abbrev Read := StateT Progress (ExceptT Error Checked)

/-- A part of the text, by byte positions that have to lie between characters. -/
def cut (text : String) (start stop : Nat) : Checked String :=
  if start ≤ stop ∧ String.Pos.Raw.IsValid text ⟨start⟩ ∧ String.Pos.Raw.IsValid text ⟨stop⟩ then
    pure (String.Pos.Raw.extract text ⟨start⟩ ⟨stop⟩)
  else throw .boundary

def peek? (text : String) : Read (Option UInt8) := do
  return (Text.utf8 text)[(← get).pos]?

def advance : Read Unit := do
  let p ← get
  let pos ← sum UInt64.size p.pos 1
  set { p with pos }

def next (text : String) : Read UInt8 := do
  match ← peek? text with
  | none => throw (.unexpectedEnd (← get).pos)
  | some byte =>
    advance
    return byte

def expect (text : String) (wanted : UInt8) : Read Unit := do
  let start := (← get).pos
  let byte ← next text
  if byte = wanted then return () else throw (.unexpected byte start)

/-- The text before the first stop, if there is one. -/
def takeUntil? (text : String) (stops : List UInt8) : Read (Option String) := do
  let p ← get
  let rest ← slice (Text.utf8 text) p.pos (Text.utf8 text).length
  match rest.findIdx? stops.contains with
  | none => return none
  | some length =>
    let stop ← sum UInt64.size p.pos length
    set { p with pos := stop }
    return some (← cut text p.pos stop)

def addName (name : String) : Read Unit :=
  modify fun p => { p with names := p.names ++ [name] }

def baseTypes : List UInt8 :=
  ['B', 'C', 'D', 'F', 'I', 'J', 'S', 'Z', 'V'].map Char.toUInt8

def typeVariable (text : String) : Read Unit := do
  match ← takeUntil? text [';'.toUInt8] with
  | none => throw (.unexpectedEnd (Text.utf8 text).length)
  | some _ => expect text ';'.toUInt8

mutual

def fieldType : ReaderT String Read Unit := fun text => do
  let start := (← get).pos
  let byte ← next text
  if baseTypes.contains byte then
    return ()
  else if byte = '['.toUInt8 then
    fieldType.run text
  else if byte = 'L'.toUInt8 then
    (classType.run text).run start
  else if byte = 'T'.toUInt8 then
    typeVariable text
  else
    throw (.unexpected byte start)
partial_fixpoint

def classType : ReaderT String (ReaderT Nat Read) Unit := fun text start => do
  match ← takeUntil? text (nameStops.map Char.toUInt8) with
  | none => throw (.unterminatedClass start)
  | some outer =>
    if outer.isEmpty then
      throw (.unterminatedClass start)
    else
      addName outer
      ((classSuffixes.run text).run start).run outer
partial_fixpoint

def classSuffixes : ReaderT String (ReaderT Nat (ReaderT String Read)) Unit := fun text start name => do
  let offset := (← get).pos
  match ← peek? text with
  | none => throw (.unterminatedClass start)
  | some byte =>
    advance
    if byte = ';'.toUInt8 then
      return ()
    else if byte = '<'.toUInt8 then
      typeArguments.run text
      ((classSuffixes.run text).run start).run name
    else if byte = '.'.toUInt8 then
      match ← takeUntil? text (nameStops.map Char.toUInt8) with
      | none => throw (.unterminatedClass start)
      | some inner =>
        let name := name ++ "$" ++ inner
        addName name
        ((classSuffixes.run text).run start).run name
    else
      throw (.unexpected byte offset)
partial_fixpoint

def typeArguments : ReaderT String Read Unit := fun text => do
  match ← peek? text with
  | none => throw (.unexpectedEnd (← get).pos)
  | some byte =>
    if byte = '>'.toUInt8 then
      advance
    else if byte = '*'.toUInt8 then
      advance
      typeArguments.run text
    else if byte = '+'.toUInt8 ∨ byte = '-'.toUInt8 then
      advance
      fieldType.run text
      typeArguments.run text
    else
      fieldType.run text
      typeArguments.run text
partial_fixpoint

end

def typeBounds : ReaderT String Read Unit := fun text => do
  if (← peek? text) = some ':'.toUInt8 then
    advance
    if (← peek? text).any (['L', '[', 'T'].map Char.toUInt8).contains then
      fieldType text
      typeBounds.run text
    else
      typeBounds.run text
  else
    return ()
partial_fixpoint

def formalParameters : ReaderT String Read Unit := fun text => do
  let start := (← get).pos
  match ← peek? text with
  | none => throw (.unexpectedEnd start)
  | some first =>
    if first = '>'.toUInt8 then
      advance
    else
      match ← takeUntil? text [':'.toUInt8] with
      | none => throw (.unexpectedEnd (Text.utf8 text).length)
      | some name =>
        if name.isEmpty ∨ name.toList.any ['>', ';', '<'].contains then
          throw (.unexpected (← byteAt (Text.utf8 text) start) start)
        else
          typeBounds text
          formalParameters.run text
partial_fixpoint

def items : ReaderT String Read Unit := fun text => do
  match ← peek? text with
  | none => return ()
  | some byte =>
    if byte = '<'.toUInt8 then
      advance
      formalParameters text
      items.run text
    else if byte = '('.toUInt8 ∨ byte = ')'.toUInt8 ∨ byte = '^'.toUInt8 then
      advance
      items.run text
    else
      fieldType text
      items.run text
partial_fixpoint

/-- The class names of a descriptor or signature. -/
def typeNames (text : String) : ExceptT Error Checked (List String) := do
  let (_, p) ← (items text).run { pos := 0, names := [] }
  return p.names

theorem utf8Length_cons (c : Char) (text : List Char) :
    utf8Length (c :: text) = c.utf8Size + utf8Length text :=
  rfl

theorem length_flatMap_utf8EncodeChar (text : List Char) :
    (text.flatMap String.utf8EncodeChar).length = utf8Length text := by
  induction text with
  | nil => rfl
  | cons c text ih =>
      rw [List.flatMap_cons, List.length_append, String.length_utf8EncodeChar, ih, utf8Length_cons]

theorem utf8Length_append (first second : List Char) :
    utf8Length (first ++ second) = utf8Length first + utf8Length second := by
  rw [← length_flatMap_utf8EncodeChar, List.flatMap_append, List.length_append,
    length_flatMap_utf8EncodeChar, length_flatMap_utf8EncodeChar]

theorem utf8Length_eq (text : List Char) : utf8Length text = String.utf8Len text := by
  induction text with
  | nil => rfl
  | cons c text ih => rw [utf8Length_cons, ih, String.utf8Len_cons, Nat.add_comm]

section Bytes

variable {stops : List Char} (ascii : ∀ x ∈ stops, x.toNat < 128)

theorem leadByte_mem (c : Char) : leadByte c ∈ String.utf8EncodeChar c := by
  obtain ⟨byte, more, written⟩ := Text.exists_utf8EncodeChar c
  rw [leadByte, written]
  exact List.mem_cons_self

theorem leadByte_eq_iff {x c : Char} (ascii : x.toNat < 128) :
    leadByte c = x.toUInt8 ↔ c = x := by
  constructor
  · intro same
    exact (Text.toUInt8_mem_utf8EncodeChar ascii).mp (same ▸ leadByte_mem c)
  · rintro rfl
    rw [leadByte, Text.utf8EncodeChar_ascii ascii]
    rfl

include ascii

/-- A character that is no stop has no byte of a stop. -/
theorem not_mem_stops {c : Char} {byte : UInt8} (written : byte ∈ String.utf8EncodeChar c)
    (free : c ∉ stops) : byte ∉ stops.map Char.toUInt8 := by
  intro stop
  obtain ⟨x, listed, rfl⟩ := List.mem_map.mp stop
  rw [(Text.toUInt8_mem_utf8EncodeChar (ascii x listed)).mp written] at free
  exact free listed

theorem leadByte_mem_iff {c : Char} : leadByte c ∈ stops.map Char.toUInt8 ↔ c ∈ stops := by
  constructor
  · intro stop
    by_contra free
    exact not_mem_stops ascii (leadByte_mem c) free stop
  · intro stop
    rw [(leadByte_eq_iff (ascii c stop)).mpr rfl]
    exact List.mem_map_of_mem stop

theorem findIdx?_free {text : List Char} (free : ∀ c ∈ text, c ∉ stops) :
    (text.flatMap String.utf8EncodeChar).findIdx? (stops.map Char.toUInt8).contains = none := by
  rw [List.findIdx?_eq_none_iff]
  intro byte written
  obtain ⟨c, inside, own⟩ := List.mem_flatMap.mp written
  simpa using not_mem_stops ascii own (free c inside)

theorem findIdx?_segment (name : Segment stops) {c : Char} (stop : c ∈ stops) (tail : List Char) :
    ((name.text ++ c :: tail).flatMap String.utf8EncodeChar).findIdx?
      (stops.map Char.toUInt8).contains = some (utf8Length name.text) := by
  have first : (stops.map Char.toUInt8).contains c.toUInt8 := by
    simpa using ⟨c, stop, rfl⟩
  rw [List.flatMap_append, List.findIdx?_append, findIdx?_free ascii name.free, List.flatMap_cons,
    Text.utf8EncodeChar_ascii (ascii c stop), List.singleton_append, List.findIdx?_cons, if_pos first,
    length_flatMap_utf8EncodeChar]
  simp

end Bytes

theorem head?_flatMap_utf8EncodeChar (text : List Char) :
    (text.flatMap String.utf8EncodeChar).head? = text.head?.map leadByte := by
  cases text with
  | nil => rfl
  | cons c tail =>
      obtain ⟨byte, more, written⟩ := Text.exists_utf8EncodeChar c
      rw [List.flatMap_cons, List.head?_cons, Option.map_some, leadByte, written]
      rfl

/-- The progress of a reader that has come as far as the scanner. -/
def progress (s : Scanner) : Progress :=
  { pos := s.offset, names := s.names }

/-- The scanner stands in the text, between two characters. -/
structure Stands (text : String) (s : Scanner) : Prop where
  fits : Text.Fits text
  split : ∃ before, text = String.ofList (before ++ s.rest) ∧ s.offset = utf8Length before

section Positions

variable {text : String} {s : Scanner} (stands : Stands text s)

include stands

theorem Stands.drop : (Text.utf8 text).drop s.offset = s.rest.flatMap String.utf8EncodeChar := by
  obtain ⟨before, rfl, offset⟩ := stands.split
  rw [Text.utf8_ofList, List.flatMap_append, offset, ← length_flatMap_utf8EncodeChar,
    List.drop_left]

theorem Stands.length : (Text.utf8 text).length = s.offset + utf8Length s.rest := by
  obtain ⟨before, rfl, offset⟩ := stands.split
  rw [Text.utf8_ofList, length_flatMap_utf8EncodeChar, utf8Length_append, offset]

theorem Stands.offset_le : s.offset + utf8Length s.rest < UInt64.size :=
  stands.length ▸ stands.fits

theorem Stands.beyond {name rest : List Char} (parts : s.rest = name ++ rest) (names : List String) :
    Stands text ⟨rest, s.offset + utf8Length name, names⟩ := by
  obtain ⟨before, written, offset⟩ := stands.split
  refine ⟨stands.fits, before ++ name, ?_, ?_⟩
  · rw [written, parts, List.append_assoc]
  · rw [utf8Length_append, ← offset]

theorem Stands.after {c : Char} {tail : List Char} (starts : s.rest = c :: tail) :
    Stands text (s.after c tail) := by
  have parts : s.rest = [c] ++ tail := starts
  exact stands.beyond parts s.names

theorem Stands.getElem? : (Text.utf8 text)[s.offset]? = s.rest.head?.map leadByte := by
  rw [← List.head?_drop, stands.drop, head?_flatMap_utf8EncodeChar]

theorem Stands.cut_eq {name rest : List Char} (parts : s.rest = name ++ rest) :
    cut text s.offset (s.offset + utf8Length name) = pure (String.ofList name) := by
  obtain ⟨before, written, offset⟩ := stands.split
  rw [parts, ← List.append_assoc] at written
  have extracted := String.extract_of_valid before name rest
  rw [← written, ← utf8Length_eq, ← utf8Length_eq, ← offset] at extracted
  have valid (front back : List Char) (whole : text = String.ofList (front ++ back)) :
      String.Pos.Raw.IsValid text ⟨utf8Length front⟩ := by
    rw [String.Pos.Raw.isValid_iff_exists_append]
    refine ⟨String.ofList front, String.ofList back, ?_, ?_⟩
    · rw [whole, String.ofList_append]
    · rw [utf8Length_eq, String.rawEndPos_ofList]
  have start := valid before (name ++ rest) (by rw [written, List.append_assoc])
  have stop := valid (before ++ name) rest written
  rw [utf8Length_append] at stop
  rw [← offset] at start stop
  rw [cut, if_pos ⟨Nat.le_add_right .., start, stop⟩, extracted]

theorem run_peek? {β : Type} (k : Option UInt8 → Read β) :
    (peek? text >>= k).run (progress s) = (k (s.rest.head?.map leadByte)).run (progress s) := by
  rw [← stands.getElem?]
  rfl

theorem run_advance {c : Char} {tail : List Char} (starts : s.rest = c :: tail) :
    advance.run (progress s) = pure ((), { pos := s.offset + 1, names := s.names }) := by
  have room := stands.offset_le
  rw [starts, utf8Length_cons] at room
  have wide := c.utf8Size_pos
  have moved : sum UInt64.size s.offset 1 = pure (s.offset + 1) := sum_eq (by omega)
  simp [advance, progress, moved]

theorem Stands.slice_eq :
    slice (Text.utf8 text) s.offset (Text.utf8 text).length =
      pure (s.rest.flatMap String.utf8EncodeChar) := by
  have inside : s.offset ≤ (Text.utf8 text).length := by
    rw [stands.length]
    exact Nat.le_add_right ..
  rw [Checked.slice_eq inside Nat.le.refl, ← stands.drop, List.take_of_length_le]
  rw [List.length_drop]

theorem run_takeUntil?_none {stops : List Char} (ascii : ∀ x ∈ stops, x.toNat < 128)
    (free : ∀ c ∈ s.rest, c ∉ stops) :
    (takeUntil? text (stops.map Char.toUInt8)).run (progress s) = pure (none, progress s) := by
  simp [takeUntil?, progress, stands.slice_eq, findIdx?_free ascii free]

theorem run_takeUntil?_some {stops : List Char} (ascii : ∀ x ∈ stops, x.toNat < 128)
    (name : Segment stops) {c : Char} (stop : c ∈ stops) {tail : List Char}
    (parts : s.rest = name.text ++ c :: tail) :
    (takeUntil? text (stops.map Char.toUInt8)).run (progress s) =
      pure (some (String.ofList name.text),
        { pos := s.offset + utf8Length name.text, names := s.names }) := by
  have room := stands.offset_le
  rw [parts, utf8Length_append] at room
  have moved : sum UInt64.size s.offset (utf8Length name.text) =
      pure (s.offset + utf8Length name.text) := sum_eq (by omega)
  have found := findIdx?_segment ascii name stop tail
  rw [← parts] at found
  simp [takeUntil?, progress, stands.slice_eq, found, moved, stands.cut_eq parts]

end Positions

theorem progress_after {c : Char} (ascii : c.toNat < 128) (s : Scanner) (tail : List Char) :
    progress (s.after c tail) = { pos := s.offset + 1, names := s.names } := by
  have width := String.length_utf8EncodeChar c
  rw [Text.utf8EncodeChar_ascii ascii] at width
  rw [progress, Scanner.after, ← width]
  rfl

/-- A read and a scan come to the same end, the read without a fault. The scanner is left between
characters of the text, with at most `limit` of them in front of it. -/
inductive Agrees (text : String) (limit : Nat) :
    ExceptT Error Checked (Unit × Progress) → Except Error Unit × Scanner → Prop
  | failed (e : Error) (t : Scanner) : Agrees text limit (throw e) (.error e, t)
  | done {t : Scanner} (stands : Stands text t) (short : t.rest.length ≤ limit) :
      Agrees text limit (pure ((), progress t)) (.ok (), t)

section Runs

variable {text : String} {limit : Nat} {s : Scanner} {p : Progress} {m m' : Read Unit}
  {d d' : Scan Unit}

theorem Agrees.mono {x : ExceptT Error Checked (Unit × Progress)} {y : Except Error Unit × Scanner}
    {larger : Nat} (agrees : Agrees text limit x y) (less : limit ≤ larger) :
    Agrees text larger x y := by
  cases agrees with
  | failed e t => exact .failed e t
  | done stands short => exact .done stands (Nat.le_trans short less)

theorem Agrees.bind (first : Agrees text limit (m.run p) (outcome d s))
    (second : ∀ t, Stands text t → t.rest.length ≤ limit →
      Agrees text limit (m'.run (progress t)) (outcome d' t)) :
    Agrees text limit ((m >>= fun _ => m').run p) (outcome (d >>= fun _ => d') s) := by
  rw [outcome_bind, StateT.run_bind]
  generalize m.run p = x at first
  generalize outcome d s = y at first
  cases first with
  | failed e t => exact .failed e t
  | done stands short => exact second _ stands short

theorem Agrees.ite {a b : Prop} [Decidable a] [Decidable b] (same : a ↔ b)
    (yes : b → Agrees text limit (m.run p) (outcome d s))
    (no : ¬ b → Agrees text limit (m'.run p) (outcome d' s)) :
    Agrees text limit ((if a then m else m').run p) (outcome (if b then d else d') s) := by
  by_cases holds : b
  · rw [if_pos holds, if_pos (same.mpr holds)]
    exact yes holds
  · rw [if_neg holds, if_neg (mt same.mp holds)]
    exact no holds

theorem outcome_next_cons {c : Char} {tail : List Char} (starts : s.rest = c :: tail)
    (g : Char × Nat → Scan Unit) :
    outcome (Descriptor.next >>= g) s = outcome (g (c, s.offset)) (s.after c tail) := by
  rw [Descriptor.next, bind_assoc, outcome_bind, outcome_next?_cons starts]
  rfl

theorem outcome_next_nil (ended : s.rest = []) (g : Char × Nat → Scan Unit) :
    outcome (Descriptor.next >>= g) s = (.error (.unexpectedEnd s.offset), s) := by
  rw [Descriptor.next, bind_assoc, outcome_bind, outcome_next?_nil ended]
  rfl

theorem outcome_get (g : Scanner → Scan Unit) : outcome (get >>= g) s = outcome (g s) s :=
  rfl

theorem outcome_peek? (g : Option Char → Scan Unit) :
    outcome (Descriptor.peek? >>= g) s = outcome (g s.rest.head?) s :=
  rfl

theorem run_next_cons (stands : Stands text s) {c : Char} {tail : List Char}
    (starts : s.rest = c :: tail) :
    (next text).run (progress s) =
      pure (leadByte c, { pos := s.offset + 1, names := s.names }) := by
  rw [next, run_peek? stands, starts]
  simp [run_advance stands starts]

theorem run_next_nil (stands : Stands text s) (ended : s.rest = []) :
    (next text).run (progress s) = throw (.unexpectedEnd s.offset) := by
  rw [next, run_peek? stands, ended]
  rfl

theorem agrees_advance (stands : Stands text s) {c : Char} {tail : List Char} (ascii : c.toNat < 128)
    (starts : s.rest = c :: tail)
    (next : Agrees text limit (m.run (progress (s.after c tail))) (outcome d (s.after c tail))) :
    Agrees text limit ((advance >>= fun _ => m).run (progress s)) (outcome d (s.after c tail)) := by
  rw [StateT.run_bind, run_advance stands starts, ← progress_after ascii s tail]
  exact next

theorem agrees_takeUntil? (stands : Stands text s) {stops : List Char}
    (ascii : ∀ x ∈ stops, x.toNat < 128) {f : Option String → Read Unit}
    {g : Option (List Char) → Scan Unit}
    (absent : Agrees text limit ((f none).run (progress s)) (outcome (g none) s))
    (found : ∀ (name : Segment stops) (c : Char) (tail : List Char), c ∈ stops →
      s.rest = name.text ++ c :: tail →
        ∀ t : Scanner, t = { s with rest := c :: tail, offset := s.offset + utf8Length name.text } →
          Stands text t →
            Agrees text limit ((f (some (String.ofList name.text))).run (progress t))
              (outcome (g (some name.text)) t)) :
    Agrees text limit ((takeUntil? text (stops.map Char.toUInt8) >>= f).run (progress s))
      (outcome (Descriptor.takeUntil? stops >>= g) s) := by
  rw [StateT.run_bind, outcome_bind]
  rcases free_or_exists_segment stops s.rest with free | ⟨name, c, tail, stop, parts⟩
  · rw [outcome_takeUntil?_none free, run_takeUntil?_none stands ascii free]
    exact absent
  · rw [outcome_takeUntil? name stop parts, run_takeUntil?_some stands ascii name stop parts]
    exact found name c tail stop parts _ rfl (stands.beyond parts s.names)

end Runs

/-- The readers that call each other, each in step with the scan that has the bound. -/
structure Lockstep (text : String) (bound : Nat) : Prop where
  type {s : Scanner} {c : Char} {tail : List Char} : Stands text s → s.rest = c :: tail →
    tail.length < bound →
      Agrees text tail.length ((fieldType text).run (progress s))
        (outcome (typeFrom bound c s.offset) (s.after c tail))
  suffixes {s : Scanner} (start : Nat) (name : List Char) : Stands text s → s.rest.length < bound →
    Agrees text s.rest.length ((classSuffixes text start (String.ofList name)).run (progress s))
      (outcome (Descriptor.classSuffixes bound start name) s)
  arguments {s : Scanner} : Stands text s → s.rest.length < bound →
    Agrees text s.rest.length ((typeArguments text).run (progress s))
      (outcome (Descriptor.typeArguments bound) s)

section Types

variable {text : String} {bound : Nat} {s : Scanner}

/-- A type of which no character has been taken yet. -/
theorem Lockstep.fieldType (ih : Lockstep text bound) (stands : Stands text s)
    (enough : s.rest.length ≤ bound) :
    Agrees text s.rest.length ((Indexed.fieldType text).run (progress s))
      (outcome (Descriptor.next >>= fun found => typeFrom bound found.1 found.2) s) := by
  cases starts : s.rest with
  | nil =>
      rw [outcome_next_nil starts, Indexed.fieldType]
      have ended := run_next_nil stands starts
      simp only [StateT.run_bind, StateT.run_get, pure_bind, ended]
      exact .failed _ _
  | cons c tail =>
      rw [starts] at enough
      rw [outcome_next_cons starts]
      exact (ih.type stands starts enough).mono (Nat.le_succ _)

theorem Lockstep.fieldTypeThen (ih : Lockstep text bound) (stands : Stands text s)
    (enough : s.rest.length ≤ bound) {m : Read Unit} {d : Scan Unit}
    (rest : ∀ t, Stands text t → t.rest.length ≤ s.rest.length →
      Agrees text s.rest.length (m.run (progress t)) (outcome d t)) :
    Agrees text s.rest.length ((Indexed.fieldType text >>= fun _ => m).run (progress s))
      (outcome (Descriptor.next >>= fun found => typeFrom bound found.1 found.2 >>= fun _ => d) s) := by
  have both := (ih.fieldType stands enough).bind rest
  rw [bind_assoc] at both
  exact both

theorem nameStops_ascii : ∀ x ∈ nameStops, x.toNat < 128 := by
  simp [nameStops]

theorem run_expect (stands : Stands text s) {c : Char} {tail : List Char} (ascii : c.toNat < 128)
    (starts : s.rest = c :: tail) :
    (expect text c.toUInt8).run (progress s) = pure ((), progress (s.after c tail)) := by
  have lead : leadByte c = c.toUInt8 := (leadByte_eq_iff ascii).mpr rfl
  rw [progress_after ascii]
  simp [expect, run_next_cons stands starts, lead]

theorem agrees_typeVariable {limit : Nat} (stands : Stands text s) (short : s.rest.length ≤ limit) :
    Agrees text limit ((typeVariable text).run (progress s)) (outcome Descriptor.typeVariable s) := by
  have ascii : ∀ x ∈ [';'], x.toNat < 128 := by simp
  refine agrees_takeUntil? stands ascii ?_ ?_
  · rw [stands.length]
    exact .failed _ _
  · rintro name c tail stop parts t rfl beyond
    obtain rfl := List.mem_singleton.mp stop
    change Agrees text limit ((expect text ';'.toUInt8).run _) (outcome (discard Descriptor.next) _)
    rw [run_expect beyond (by decide) rfl, outcome_discard_next rfl]
    refine .done (beyond.after rfl) ?_
    rw [parts, List.length_append, List.length_cons] at short
    change tail.length ≤ limit
    omega

/-- A class type after its first character. -/
theorem Lockstep.classType (ih : Lockstep text bound) (start : Nat) (stands : Stands text s)
    (enough : s.rest.length < bound + 1) :
    Agrees text s.rest.length ((Indexed.classType text start).run (progress s))
      (outcome (Descriptor.takeUntil? nameStops >>= fun
        | none => throw (.unterminatedClass start)
        | some [] => throw (.unterminatedClass start)
        | some name => do
          Descriptor.addName name
          Descriptor.classSuffixes bound start name) s) := by
  rw [Indexed.classType]
  refine agrees_takeUntil? stands nameStops_ascii (.failed _ _) ?_
  intro name c tail stop parts t after beyond
  cases spelled : name.text with
  | nil => exact .failed _ _
  | cons first more =>
      have shorter : t.rest.length < s.rest.length := by
        rw [after, parts, spelled, List.length_append, List.length_cons, List.length_cons]
        omega
      have named : Stands text { t with names := t.names ++ [String.ofList (first :: more)] } :=
        ⟨beyond.fits, beyond.split⟩
      have next := ih.suffixes start (first :: more) named (by change t.rest.length < bound; omega)
      have written : ¬ (String.ofList (first :: more)).isEmpty := by
        simp
      dsimp only
      rw [if_neg written]
      exact next.mono (Nat.le_of_lt shorter)

theorem baseTypes_ascii : ∀ x ∈ ['B', 'C', 'D', 'F', 'I', 'J', 'S', 'Z', 'V'], x.toNat < 128 := by
  simp

theorem baseTypes_contains (c : Char) : baseTypes.contains (leadByte c) ↔ isBaseType c := by
  unfold baseTypes isBaseType
  rw [List.contains_iff_mem, List.contains_iff_mem]
  exact leadByte_mem_iff baseTypes_ascii

theorem Lockstep.type_step (ih : Lockstep text bound) (stands : Stands text s) {c : Char}
    {tail : List Char} (starts : s.rest = c :: tail) (enough : tail.length < bound + 1) :
    Agrees text tail.length ((Indexed.fieldType text).run (progress s))
      (outcome (typeFrom (bound + 1) c s.offset) (s.after c tail)) := by
  rw [Indexed.fieldType, typeFrom]
  have taken := run_next_cons stands starts
  simp only [StateT.run_bind, StateT.run_get, pure_bind, taken]
  have beyond := stands.after starts
  refine .ite (baseTypes_contains c) (fun base => ?base) fun _ =>
    .ite (leadByte_eq_iff (by decide)) (fun array => ?array) fun _ =>
      .ite (leadByte_eq_iff (by decide)) (fun classType => ?classType) fun _ =>
        .ite (leadByte_eq_iff (by decide)) (fun variableType => ?variableType) fun _ => .failed _ _
  case base =>
    rw [← progress_after (baseTypes_ascii c (List.contains_iff_mem.mp base)) s tail]
    exact .done beyond Nat.le.refl
  case array =>
    subst array
    rw [← progress_after (c := '[') (by decide) s tail]
    exact ih.fieldType beyond (Nat.le_of_lt_succ enough)
  case classType =>
    subst classType
    rw [← progress_after (c := 'L') (by decide) s tail]
    exact ih.classType s.offset beyond enough
  case variableType =>
    subst variableType
    rw [← progress_after (c := 'T') (by decide) s tail]
    exact agrees_typeVariable beyond Nat.le.refl

/-- An inner class name after its dot. -/
theorem Lockstep.inner (ih : Lockstep text bound) (start : Nat) (name : List Char)
    (stands : Stands text s) (enough : s.rest.length < bound) :
    Agrees text s.rest.length
      ((takeUntil? text (nameStops.map Char.toUInt8) >>= fun
        | none => throw (.unterminatedClass start)
        | some inner => do
          addName (String.ofList name ++ "$" ++ inner)
          Indexed.classSuffixes text start (String.ofList name ++ "$" ++ inner)).run (progress s))
      (outcome (Descriptor.takeUntil? nameStops >>= fun
        | none => throw (.unterminatedClass start)
        | some inner => do
          Descriptor.addName (name ++ '$' :: inner)
          Descriptor.classSuffixes bound start (name ++ '$' :: inner)) s) := by
  refine agrees_takeUntil? stands nameStops_ascii (.failed _ _) ?_
  intro inner c tail stop parts t after beyond
  have shorter : t.rest.length ≤ s.rest.length := by
    rw [after, parts, List.length_append]
    exact Nat.le_add_left ..
  have written : String.ofList name ++ "$" ++ String.ofList inner.text =
      String.ofList (name ++ '$' :: inner.text) := by
    simp [String.ofList_append, String.append_assoc]
  have named : Stands text { t with names := t.names ++ [String.ofList (name ++ '$' :: inner.text)] } :=
    ⟨beyond.fits, beyond.split⟩
  have next := ih.suffixes start (name ++ '$' :: inner.text) named
    (by change t.rest.length < bound; omega)
  dsimp only
  rw [written]
  exact next.mono shorter

theorem Lockstep.suffixes_step (ih : Lockstep text bound) (start : Nat) (name : List Char)
    (stands : Stands text s) (enough : s.rest.length < bound + 1) :
    Agrees text s.rest.length
      ((Indexed.classSuffixes text start (String.ofList name)).run (progress s))
      (outcome (Descriptor.classSuffixes (bound + 1) start name) s) := by
  rw [Indexed.classSuffixes, Descriptor.classSuffixes, StateT.run_bind, StateT.run_get, pure_bind,
    run_peek? stands, outcome_bind]
  cases starts : s.rest with
  | nil =>
      rw [outcome_next?_nil starts]
      exact .failed _ _
  | cons c tail =>
      have within := tail_length_lt starts enough
      have beyond := stands.after starts
      rw [outcome_next?_cons starts]
      change Agrees text _ ((advance >>= _).run _) _
      rw [StateT.run_bind, run_advance stands starts, pure_bind]
      refine .ite (leadByte_eq_iff (by decide)) (fun semicolon => ?semicolon) fun _ =>
        .ite (leadByte_eq_iff (by decide)) (fun bracket => ?bracket) fun _ =>
          .ite (leadByte_eq_iff (by decide)) (fun dot => ?dot) fun _ => .failed _ _
      case semicolon =>
        subst semicolon
        rw [← progress_after (c := ';') (by decide) s tail]
        exact .done beyond (Nat.le_succ _)
      case bracket =>
        subst bracket
        rw [← progress_after (c := '<') (by decide) s tail]
        refine (Agrees.bind (ih.arguments beyond within) ?_).mono (Nat.le_succ _)
        intro t between short
        exact (ih.suffixes start name between (Nat.lt_of_le_of_lt short within)).mono short
      case dot =>
        subst dot
        rw [← progress_after (c := '.') (by decide) s tail]
        exact (ih.inner start name beyond within).mono (Nat.le_succ _)

theorem Lockstep.arguments_step (ih : Lockstep text bound) (stands : Stands text s)
    (enough : s.rest.length < bound + 1) :
    Agrees text s.rest.length ((Indexed.typeArguments text).run (progress s))
      (outcome (Descriptor.typeArguments (bound + 1)) s) := by
  rw [Indexed.typeArguments, Descriptor.typeArguments, run_peek? stands]
  cases starts : s.rest with
  | nil =>
      rw [outcome_next_nil starts]
      exact .failed _ _
  | cons c tail =>
      have within := tail_length_lt starts enough
      have beyond := stands.after starts
      rw [outcome_next_cons starts]
      refine Agrees.mono ?_ (Nat.le_succ tail.length)
      have rest (t : Scanner) (between : Stands text t) (short : t.rest.length ≤ tail.length) :
          Agrees text tail.length ((Indexed.typeArguments text).run (progress t))
            (outcome (Descriptor.typeArguments bound) t) :=
        (ih.arguments between (Nat.lt_of_le_of_lt short within)).mono short
      refine .ite (leadByte_eq_iff (by decide)) (fun bracket => ?bracket) fun _ =>
        .ite (leadByte_eq_iff (by decide)) (fun wildcard => ?wildcard) fun _ =>
          .ite (or_congr (leadByte_eq_iff (by decide)) (leadByte_eq_iff (by decide)))
            (fun variance => ?variance) fun _ => ?other
      case bracket =>
        subst bracket
        rw [run_advance stands starts, ← progress_after (c := '>') (by decide) s tail]
        exact .done beyond Nat.le.refl
      case wildcard =>
        subst wildcard
        exact agrees_advance stands (by decide) starts (ih.arguments beyond within)
      case variance =>
        have ascii : c.toNat < 128 := by
          rcases variance with rfl | rfl <;> decide
        exact agrees_advance stands ascii starts
          (ih.fieldTypeThen beyond (Nat.le_of_lt within) rest)
      case other => exact (ih.type stands starts within).bind rest

end Types

theorem lockstep (text : String) (bound : Nat) : Lockstep text bound := by
  induction bound with
  | zero =>
      exact ⟨fun _ _ short => absurd short (Nat.not_lt_zero _),
        fun _ _ _ short => absurd short (Nat.not_lt_zero _),
        fun _ short => absurd short (Nat.not_lt_zero _)⟩
  | succ bound ih => exact ⟨fun stands => ih.type_step stands, ih.suffixes_step, ih.arguments_step⟩

section Formals

variable {text : String} {s : Scanner}

theorem map_leadByte_eq_some_iff {x : Char} (ascii : x.toNat < 128) (c : Option Char) :
    c.map leadByte = some x.toUInt8 ↔ c = some x := by
  cases c with
  | none => simp
  | some c => simp [leadByte_eq_iff ascii]

theorem any_map_leadByte {stops : List Char} (ascii : ∀ x ∈ stops, x.toNat < 128) (c : Option Char) :
    (c.map leadByte).any (stops.map Char.toUInt8).contains ↔ c.any stops.contains := by
  cases c with
  | none => rfl
  | some c =>
      rw [Option.map_some, Option.any_some, Option.any_some, List.contains_iff_mem,
        List.contains_iff_mem]
      exact leadByte_mem_iff ascii

theorem agrees_typeBounds {bound : Nat} (stands : Stands text s) (enough : s.rest.length < bound) :
    Agrees text s.rest.length ((typeBounds text).run (progress s))
      (outcome (Descriptor.typeBounds bound) s) := by
  induction bound generalizing s with
  | zero => exact absurd enough (Nat.not_lt_zero _)
  | succ bound ih =>
      rw [typeBounds, Descriptor.typeBounds, run_peek? stands]
      refine .ite (d := _ >>= _) (map_leadByte_eq_some_iff (by decide) s.rest.head?) (fun colon => ?_)
        fun _ => .done stands Nat.le.refl
      obtain ⟨tail, starts⟩ := List.head?_eq_some_iff.mp colon
      have within := tail_length_lt starts enough
      have beyond := stands.after starts
      rw [outcome_bind, outcome_discard_next starts, starts]
      refine Agrees.mono ?_ (Nat.le_succ tail.length)
      refine agrees_advance stands (by decide) starts ?_
      rw [run_peek? beyond]
      refine .ite (d := _ >>= _) (any_map_leadByte (by simp) tail.head?) (fun _ => ?type) fun _ => ?none
      case type =>
        refine (lockstep text bound).fieldTypeThen beyond (Nat.le_of_lt within) ?_
        intro t between short
        exact (ih between (Nat.lt_of_le_of_lt short within)).mono short
      case none => exact ih beyond within

/-- One formal parameter and those after it. -/
theorem agrees_formal {bound : Nat} (stands : Stands text s) {first : Char} {tail : List Char}
    (starts : s.rest = first :: tail) (enough : s.rest.length < bound + 1)
    (ih : ∀ t : Scanner, Stands text t → t.rest.length < bound →
      Agrees text t.rest.length ((formalParameters text).run (progress t))
        (outcome (Descriptor.formalParameters bound) t)) :
    Agrees text s.rest.length
      ((takeUntil? text [':'.toUInt8] >>= fun
        | none => throw (.unexpectedEnd (Text.utf8 text).length)
        | some name =>
          if name.isEmpty ∨ name.toList.any ['>', ';', '<'].contains then do
            throw (.unexpected (← byteAt (Text.utf8 text) s.offset) s.offset)
          else do
            typeBounds text
            formalParameters text).run (progress s))
      (outcome (Descriptor.takeUntil? [':'] >>= fun
        | none => failAtTextEnd
        | some name =>
          if name.isEmpty ∨ name.any ['>', ';', '<'].contains then
            throw (.unexpected (leadByte first) s.offset)
          else do
            Descriptor.typeBounds bound
            Descriptor.formalParameters bound) s) := by
  have ascii : ∀ x ∈ [':'], x.toNat < 128 := by simp
  refine agrees_takeUntil? stands ascii ?_ ?_
  · rw [stands.length]
    exact .failed _ _
  intro name c rest stop parts t after beyond
  refine .ite ?_ (fun _ => ?malformed) fun legal => ?legal
  · simp
  case malformed =>
    have there : byteAt (Text.utf8 text) s.offset = pure (leadByte first) := by
      apply byteAt_eq
      rw [stands.getElem?, starts]
      rfl
    rw [there]
    exact .failed _ _
  case legal =>
    have named : name.text ≠ [] := by
      intro absent
      simp [absent] at legal
    have shorter : t.rest.length < s.rest.length := by
      have nonempty := List.length_pos_iff.mpr named
      rw [after, parts, List.length_append]
      exact Nat.lt_add_of_pos_left nonempty
    have within : t.rest.length < bound := by omega
    refine ((agrees_typeBounds beyond within).bind ?_).mono (Nat.le_of_lt shorter)
    intro u between short
    exact (ih u between (Nat.lt_of_le_of_lt short within)).mono short

theorem agrees_formalParameters {bound : Nat} (stands : Stands text s)
    (enough : s.rest.length < bound) :
    Agrees text s.rest.length ((formalParameters text).run (progress s))
      (outcome (Descriptor.formalParameters bound) s) := by
  induction bound generalizing s with
  | zero => exact absurd enough (Nat.not_lt_zero _)
  | succ bound ih =>
      rw [formalParameters, Descriptor.formalParameters, StateT.run_bind, StateT.run_get, pure_bind,
        run_peek? stands, outcome_get, outcome_peek?]
      cases starts : s.rest with
      | nil => exact .failed _ _
      | cons c tail =>
          by_cases bracket : c = '>'
          · subst bracket
            change Agrees text (tail.length + 1) (advance.run _) (outcome (discard Descriptor.next) s)
            rw [run_advance stands starts, outcome_discard_next starts,
              ← progress_after (c := '>') (by decide) s tail]
            exact .done (stands.after starts) (Nat.le_succ _)
          · have other : leadByte c ≠ '>'.toUInt8 := mt (leadByte_eq_iff (by decide)).mp bracket
            have formal := agrees_formal stands starts enough fun t => ih
            rw [starts] at formal
            rw [List.head?_cons, Option.map_some]
            dsimp only
            rw [if_neg other]
            split
            case h_1 absent => cases absent
            case h_2 same => exact absurd (Option.some.inj same) bracket
            case h_3 same =>
              cases same
              exact formal

theorem agrees_items {bound : Nat} (stands : Stands text s) (enough : s.rest.length < bound) :
    Agrees text s.rest.length ((items text).run (progress s)) (outcome (Descriptor.items bound) s) := by
  induction bound generalizing s with
  | zero => exact absurd enough (Nat.not_lt_zero _)
  | succ bound ih =>
      rw [items, Descriptor.items, run_peek? stands, outcome_bind]
      cases starts : s.rest with
      | nil =>
          rw [outcome_next?_nil starts]
          exact .done stands (Nat.le_of_eq (congrArg List.length starts))
      | cons c tail =>
          have within := tail_length_lt starts enough
          have beyond := stands.after starts
          have rest (t : Scanner) (between : Stands text t) (short : t.rest.length ≤ tail.length) :
              Agrees text tail.length ((items text).run (progress t))
                (outcome (Descriptor.items bound) t) :=
            (ih between (Nat.lt_of_le_of_lt short within)).mono short
          rw [outcome_next?_cons starts]
          refine Agrees.mono ?_ (Nat.le_succ tail.length)
          refine .ite (d := _ >>= _) (leadByte_eq_iff (by decide)) (fun bracket => ?_) fun _ => ?_
          · subst bracket
            refine agrees_advance stands (by decide) starts ?_
            exact (agrees_formalParameters beyond within).bind rest
          · have marks : leadByte c = '('.toUInt8 ∨ leadByte c = ')'.toUInt8 ∨ leadByte c = '^'.toUInt8 ↔
                c = '(' ∨ c = ')' ∨ c = '^' :=
              or_congr (leadByte_eq_iff (by decide))
                (or_congr (leadByte_eq_iff (by decide)) (leadByte_eq_iff (by decide)))
            by_cases marked : c = '(' ∨ c = ')' ∨ c = '^'
            · have ascii : c.toNat < 128 := by
                rcases marked with rfl | rfl | rfl <;> decide
              rw [if_pos (marks.mpr marked), if_neg (by tauto)]
              exact agrees_advance stands ascii starts (rest _ beyond Nat.le.refl)
            · rw [if_neg (mt marks.mp marked), if_pos (by tauto)]
              exact ((lockstep text bound).type stands starts within).bind rest

end Formals

/-- No fault is met in a text of any form, and the names are those of the scan. -/
theorem typeNames_eq {text : String} (fits : Text.Fits text) :
    typeNames text = liftM (Descriptor.typeNames text) := by
  have stands : Stands text { rest := text.toList, offset := 0, names := [] } :=
    ⟨fits, [], String.ofList_toList.symm, rfl⟩
  have agrees := agrees_items stands (Nat.lt_succ_self _)
  change Agrees _ _ ((items text).run { pos := 0, names := [] }) _ at agrees
  unfold typeNames Descriptor.typeNames
  rw [collect_eq]
  generalize (items text).run { pos := 0, names := [] } = x at agrees
  generalize outcome _ _ = y at agrees
  cases agrees with
  | failed e t => rfl
  | done stands short => rfl

end ClassAtlas.Descriptor.Indexed

import ClassAtlas.Proofs.ClassFile.Indexed.Bytecode
import ClassAtlas.Proofs.ClassFile.MemberLayout

/-!
The class record by position. The body of an attribute is read by a reader of its own, and a known
attribute changes the state of the element it belongs to as soon as it is read.
-/

namespace ClassAtlas.ClassFile.Indexed

open Checked

/-- The next `n` attributes. `handle` gives the change that a known attribute makes. -/
def attributesFrom {σ : Type} (pool : ConstantPool) (handle : String → Option (σ → Read σ)) :
    Nat → σ → Read σ
  | 0, state => return state
  | n + 1, state => do
    let name ← pool.utf8 (← u2)
    let body ← sub (← u4)
    match handle name with
    | none => attributesFrom pool handle n state
    | some change =>
      let (state, after) ← (change state).run body
      let left ← after.remaining
      if left = 0 then attributesFrom pool handle n state
      else throw (.trailingBytes name left)

def attributes {σ : Type} (pool : ConstantPool) (handle : String → Option (σ → Read σ)) (state : σ) :
    Read σ := do
  attributesFrom pool handle (← u2) state

/-- The changes that make nothing but an addition to the state. -/
def adding {σ α : Type} (add : σ → α → σ) (known : String → Option (Read α)) (name : String) :
    Option (σ → Read σ) :=
  (known name).map fun content state => return add state (← content)

def className (pool : ConstantPool) : Read String := do
  pool.className (← u2)

def className? (pool : ConstantPool) : Read (Option String) := do
  pool.className? (← u2)

def text (pool : ConstantPool) : Read String := do
  pool.utf8 (← u2)

def handler (pool : ConstantPool) : Read ExceptionHandler := do
  let startPc ← u2
  let endPc ← u2
  let handlerPc ← u2
  let catchType ← className? pool
  return { startPc, endPc, handlerPc, catchType }

def localVariable (pool : ConstantPool) : Read LocalVariable := do
  let _startPc ← u2
  let _length ← u2
  let name ← text pool
  let descriptor ← text pool
  let index ← u2
  return { name, descriptor, index }

def codeAttribute (pool : ConstantPool) (name : String) : Option (Read Code.Attribute) :=
  if name = "LocalVariableTable" then
    some (.locals <$> table (localVariable pool))
  else if name = "LocalVariableTypeTable" then
    some (.localTypes <$> table (localVariable pool))
  else none

def code (pool : ConstantPool) : Read Code := do
  let maxStack ← u2
  let maxLocals ← u2
  let length ← u4
  let base ← offset
  let array ← bytes length
  let instructions ← instructionsFrom pool array base 0 []
  let handlers ← table (handler pool)
  attributes pool (adding Code.add (codeAttribute pool))
    { maxStack, maxLocals, instructions, handlers, locals := [], localTypes := [] }

def commonAttribute (pool : ConstantPool) (name : String) : Option (Read CommonAttribute) :=
  if name = "Signature" then
    some (.signature <$> text pool)
  else if name = "RuntimeVisibleAnnotations" ∨ name = "RuntimeInvisibleAnnotations" then
    some (.annotations <$> annotations pool)
  else none

def field (pool : ConstantPool) : Read Field := do
  let access ← u2
  let name ← text pool
  let descriptor ← text pool
  attributes pool (adding Field.add (commonAttribute pool)) { access, name, descriptor }

/-- Tables for at least the parameters up to the given one. -/
def grownTo (tables : List (List AnnotationEntry)) (parameter : Nat) :
    Checked (List (List AnnotationEntry)) :=
  if tables.length ≤ parameter then do
    let size ← sum UInt64.size parameter 1
    return tables ++ List.replicate (size - tables.length) []
  else
    return tables

/-- Appends to the table of one parameter. -/
def extendAt (tables : List (List AnnotationEntry)) (parameter : Nat)
    (entries : List AnnotationEntry) : Checked (List (List AnnotationEntry)) := do
  let grown ← grownTo tables parameter
  return grown.set parameter ((← item grown parameter) ++ entries)

/-- The tables of `left` parameters, the first of them being `parameter`. -/
def parametersFrom (pool : ConstantPool) :
    Nat → Nat → List (List AnnotationEntry) → Read (List (List AnnotationEntry))
  | 0, _, tables => return tables
  | left + 1, parameter, tables => do
    let entries ← annotations pool
    parametersFrom pool left (parameter + 1) (← extendAt tables parameter entries)

def parameterAnnotations (pool : ConstantPool) (method : Method) : Read Method := do
  let parameters ← u1
  let tables ← parametersFrom pool parameters.toNat 0 method.parameterAnnotations
  return { method with parameterAnnotations := tables }

def methodAttribute (pool : ConstantPool) (name : String) : Option (Read Method.Attribute) :=
  if name = "Exceptions" then
    some (.exceptions <$> table (className pool))
  else if name = "Code" then
    some (.code <$> code pool)
  else if name = "AnnotationDefault" then
    some (.annotationDefault <$> elementValue pool)
  else
    (commonAttribute pool name).map (.common <$> ·)

def method (pool : ConstantPool) : Read Method := do
  let access ← u2
  let name ← text pool
  let descriptor ← text pool
  attributes pool
    (fun name =>
      if name = "RuntimeVisibleParameterAnnotations"
          ∨ name = "RuntimeInvisibleParameterAnnotations" then
        some (parameterAnnotations pool)
      else adding Method.add (methodAttribute pool) name)
    { access, name, descriptor }

def record : Read Record := do
  let found ← u4
  if found ≠ Record.magic then
    throw (.badMagic found)
  let minor ← u2
  let major ← u2
  let constants ← pool
  let access ← u2
  let thisClass ← className constants
  let superClass ← className? constants
  let interfaces ← table (className constants)
  let fields ← table (field constants)
  let methods ← table (method constants)
  attributes constants (adding Record.add (commonAttribute constants))
    { minor, major, constants, access, thisClass, superClass, interfaces, fields, methods }

/-- A change and the content it adds, for an attribute that is known, and neither for any other. The
state keeps the property `S`. -/
abbrev Handles {σ α : Type} (S : σ → Prop) (add : σ → α → σ) :
    Option (σ → Read σ) → Option (Decoder α) → Prop :=
  Option.Rel fun change content =>
    ∀ limit state, S state → Follows limit S (change state) (add state <$> content)

section Attributes

variable {σ α : Type} {S : σ → Prop} {add : σ → α → σ} {pool : ConstantPool}
  {handle : String → Option (σ → Read σ)} {known : String → Option (Decoder α)}

/-- A body that is read to its end by a reader of its own. -/
theorem follows_body {β : Type} {Q : β → Prop} {limit : Nat} {change : Read σ} {content : Decoder α}
    {body : Reader} (inRange : body.InRange) {state : σ} {name : String}
    (follows : Follows body.cursor.rest.length S change (add state <$> content))
    {f : σ → Read β} {g : Option α → Decoder β}
    (next : ∀ value, S (add state value) → Follows limit Q (f (add state value)) (g (some value))) :
    Follows limit Q
      (do
        let read ← change.run body
        let left ← read.2.remaining
        if left = 0 then f read.1 else throw (.trailingBytes name left))
      ((do
        let read ← Decoder.within body.cursor content
        if read.2.rest.isEmpty then pure (some read.1)
        else Decoder.fail (.trailingBytes name read.2.rest.length)) >>= g) := by
  have agrees := follows body inRange Nat.le.refl
  rw [StateT.run_map] at agrees
  unfold Decoder.within
  cases ran : content.run body.cursor with
  | error e =>
      rw [ran] at agrees
      rw [agrees.of_error]
      exact .fail e
  | ok found =>
      obtain ⟨value, after⟩ := found
      rw [ran] at agrees
      obtain ⟨r, run, holds, inside, rfl⟩ := agrees.of_ok
      rw [run]
      change Follows limit Q (do
        let left ← r.remaining
        if left = 0 then f (add state value) else throw (.trailingBytes name left))
        ((if r.cursor.rest.isEmpty then _ else _) >>= g)
      rw [inside.remaining_eq, liftM_pure, pure_bind]
      simp only [List.isEmpty_iff]
      by_cases read : r.cursor.rest = []
      · rw [if_pos read, if_pos (List.length_eq_zero_iff.mpr read)]
        exact next value holds
      · rw [if_neg read, if_neg (mt List.length_eq_zero_iff.mp read)]
        exact .fail _

theorem follows_attributesFrom (fits : PoolFits pool)
    (handles : ∀ name, Handles S add (handle name) (known name)) (limit n : Nat) (state : σ)
    (holds : S state) :
    Follows limit S (attributesFrom pool handle n state)
      (do
        let entries ← Decoder.times (Decoder.attributeEntry pool known) n
        return (entries.filterMap id).foldl add state) := by
  induction n generalizing state with
  | zero => exact .pure holds
  | succ n ih =>
      rw [attributesFrom, Decoder.times]
      generalize Decoder.times (Decoder.attributeEntry pool known) n = entries at ih ⊢
      unfold Decoder.attributeEntry sub
      simp only [bind_assoc, pure_bind]
      refine fits.utf8Then fun name _ => ?_
      refine Follows.u4.bind fun length _ => Follows.split length fun base data sized inRecord => ?_
      have inRange : Reader.InRange ⟨data, 0, base⟩ := ⟨Nat.zero_le _, sized ▸ inRecord⟩
      have handled := handles name
      generalize handle name = change at handled
      generalize known name = content at handled
      cases handled with
      | none => exact ih state holds
      | some follows =>
          exact follows_body inRange (follows _ state holds) (f := attributesFrom pool handle n)
            (g := fun entry => entries >>= fun more =>
              pure (((entry :: more).filterMap id).foldl add state))
            fun value kept => ih (add state value) kept

theorem follows_attributes (fits : PoolFits pool)
    (handles : ∀ name, Handles S add (handle name) (known name)) (limit : Nat) (state : σ)
    (holds : S state) :
    Follows limit S (attributes pool handle state)
      (do
        let contents ← Decoder.attributes pool known
        return contents.foldl add state) := by
  unfold attributes Decoder.attributes Decoder.table
  simp only [bind_assoc, pure_bind]
  exact Follows.u2.bind fun count _ => follows_attributesFrom fits handles limit count state holds

/-- The readers of contents on both sides, for the same names. -/
abbrev Knows (P : α → Prop) : Option (Read α) → Option (Decoder α) → Prop :=
  Option.Rel fun m d => ∀ limit, Follows limit P m d

theorem handles_adding {P : α → Prop} (keeps : ∀ state a, S state → P a → S (add state a))
    {contents : String → Option (Read α)} {name : String}
    (knows : Knows P (contents name) (known name)) :
    Handles S add (adding add contents name) (known name) := by
  unfold adding
  generalize contents name = content at knows
  generalize known name = decoder at knows
  cases knows with
  | none => exact .none
  | some follows =>
      refine .some fun limit state holds => ?_
      rw [map_eq_pure_bind]
      exact (follows limit).bind fun a value => .pure (keeps state a holds value)

end Attributes

theorem rel_ite {α β : Type} {r : α → β → Prop} {c : Prop} [Decidable c] {a a' : Option α}
    {b b' : Option β} (yes : Option.Rel r a b) (no : Option.Rel r a' b') :
    Option.Rel r (if c then a else a') (if c then b else b') := by
  split
  · exact yes
  · exact no

/-! Texts that are parsed later, element by element. -/

def CommonFits : CommonAttribute → Prop
  | .signature text => Text.Fits text
  | .annotations entries => ∀ entry ∈ entries, AnnotationFits entry

def LocalsFit (entries : List LocalVariable) : Prop :=
  ∀ entry ∈ entries, Text.Fits entry.descriptor

structure CodeFits (code : Code) : Prop where
  instructions : ∀ instruction ∈ code.instructions, InstructionFits instruction
  locals : LocalsFit code.locals
  localTypes : LocalsFit code.localTypes

def CodeAttributeFits : Code.Attribute → Prop
  | .locals entries => LocalsFit entries
  | .localTypes entries => LocalsFit entries

structure FieldFits (field : Field) : Prop where
  descriptor : Text.Fits field.descriptor
  signature : ∀ text ∈ field.signature, Text.Fits text
  annotations : ∀ entry ∈ field.annotations, AnnotationFits entry

structure MethodFits (method : Method) : Prop where
  descriptor : Text.Fits method.descriptor
  signature : ∀ text ∈ method.signature, Text.Fits text
  annotations : ∀ entry ∈ method.annotations, AnnotationFits entry
  parameterAnnotations : ∀ table ∈ method.parameterAnnotations, ∀ entry ∈ table, AnnotationFits entry
  annotationDefault : ∀ value ∈ method.annotationDefault, ValueFits value
  code : ∀ code ∈ method.code, CodeFits code

def MethodAttributeFits : Method.Attribute → Prop
  | .common shared => CommonFits shared
  | .exceptions _ => True
  | .code code => CodeFits code
  | .parameterAnnotations tables => ∀ table ∈ tables, ∀ entry ∈ table, AnnotationFits entry
  | .annotationDefault value => ValueFits value

structure RecordFits (record : Record) : Prop where
  signature : ∀ text ∈ record.signature, Text.Fits text
  annotations : ∀ entry ∈ record.annotations, AnnotationFits entry
  fields : ∀ field ∈ record.fields, FieldFits field
  methods : ∀ method ∈ record.methods, MethodFits method

theorem FieldFits.add {field : Field} (fits : FieldFits field) {a : CommonAttribute}
    (added : CommonFits a) : FieldFits (field.add a) := by
  cases a with
  | signature text => exact { fits with signature := by rintro _ ⟨⟩; exact added }
  | annotations entries =>
      exact { fits with annotations := List.forall_mem_append.mpr ⟨fits.annotations, added⟩ }

theorem CodeFits.add {code : Code} (fits : CodeFits code) {a : Code.Attribute}
    (added : CodeAttributeFits a) : CodeFits (code.add a) := by
  cases a with
  | locals entries =>
      exact { fits with locals := List.forall_mem_append.mpr ⟨fits.locals, added⟩ }
  | localTypes entries =>
      exact { fits with localTypes := List.forall_mem_append.mpr ⟨fits.localTypes, added⟩ }

theorem RecordFits.add {record : Record} (fits : RecordFits record) {a : CommonAttribute}
    (added : CommonFits a) : RecordFits (record.add a) := by
  cases a with
  | signature text => exact { fits with signature := by rintro _ ⟨⟩; exact added }
  | annotations entries =>
      exact { fits with annotations := List.forall_mem_append.mpr ⟨fits.annotations, added⟩ }

theorem joinTables_fit {tables more : List (List AnnotationEntry)}
    (first : ∀ table ∈ tables, ∀ entry ∈ table, AnnotationFits entry)
    (second : ∀ table ∈ more, ∀ entry ∈ table, AnnotationFits entry) :
    ∀ table ∈ Method.joinTables tables more, ∀ entry ∈ table, AnnotationFits entry := by
  fun_induction Method.joinTables tables more with
  | case1 => exact second
  | case2 => exact first
  | case3 table tables more rest ih =>
      rw [List.forall_mem_cons] at first second ⊢
      exact ⟨List.forall_mem_append.mpr ⟨first.1, second.1⟩, ih first.2 second.2⟩

theorem MethodFits.add {method : Method} (fits : MethodFits method) {a : Method.Attribute}
    (added : MethodAttributeFits a) : MethodFits (method.add a) := by
  cases a with
  | common shared =>
      cases shared with
      | signature text => exact { fits with signature := by rintro _ ⟨⟩; exact added }
      | annotations entries =>
          exact { fits with annotations := List.forall_mem_append.mpr ⟨fits.annotations, added⟩ }
  | exceptions names => exact { fits with }
  | code code => exact { fits with code := by rintro _ ⟨⟩; exact added }
  | parameterAnnotations tables =>
      exact { fits with parameterAnnotations := joinTables_fit fits.parameterAnnotations added }
  | annotationDefault value =>
      exact { fits with annotationDefault := by rintro _ ⟨⟩; exact added }

theorem grownTo_cons (table : List AnnotationEntry) (tables : List (List AnnotationEntry))
    {parameter : Nat} (small : parameter + 2 < UInt64.size) :
    grownTo (table :: tables) (parameter + 1) = (table :: ·) <$> grownTo tables parameter := by
  unfold grownTo
  by_cases grow : tables.length ≤ parameter
  · have size : sum UInt64.size parameter 1 = pure (parameter + 1) := sum_eq (by omega)
    have sizeMore : sum UInt64.size (parameter + 1) 1 = pure (parameter + 1 + 1) := sum_eq small
    rw [if_pos grow, if_pos (by simpa using grow), size, sizeMore]
    simp
  · rw [if_neg grow, if_neg (by simpa using grow), map_pure]

theorem extendAt_cons (table : List AnnotationEntry) (tables : List (List AnnotationEntry))
    {parameter : Nat} (small : parameter + 2 < UInt64.size) (entries : List AnnotationEntry) :
    extendAt (table :: tables) (parameter + 1) entries =
      (table :: ·) <$> extendAt tables parameter entries := by
  unfold extendAt
  rw [grownTo_cons table tables small, bind_map_left, map_bind]
  congr 1
  funext grown
  rw [map_bind]
  rfl

/-- Once the tables in `read` are joined, the next one goes to the parameter behind them. -/
theorem extendAt_joinTables (tables read : List (List AnnotationEntry)) (entries : List AnnotationEntry)
    (small : read.length + 1 < UInt64.size) :
    extendAt (Method.joinTables tables read) read.length entries =
      pure (Method.joinTables tables (read ++ [entries])) := by
  induction read generalizing tables with
  | nil =>
      cases tables with
      | nil => rfl
      | cons table tables =>
          change _ = pure ((table ++ entries) :: Method.joinTables tables [])
          rw [joinTables_nil, joinTables_nil]
          rfl
  | cons first read ih =>
      have fewer := Nat.lt_of_succ_lt small
      cases tables with
      | nil =>
          change extendAt (first :: read) (read.length + 1) entries = _
          rw [extendAt_cons first read small]
          have rest := ih [] fewer
          change extendAt read read.length entries = _ at rest
          rw [rest]
          rfl
      | cons table tables =>
          change extendAt ((table ++ first) :: Method.joinTables tables read) (read.length + 1) entries = _
          rw [extendAt_cons _ _ small, ih tables fewer]
          rfl

section Elements

variable {pool : ConstantPool} (fits : PoolFits pool) (limit : Nat)

theorem follows_className : Follows limit (fun _ => True) (className pool) (decodeClassName pool) :=
  Follows.u2.bind fun _ _ => .resolve fun _ _ => trivial

theorem follows_className? :
    Follows limit (fun _ => True) (className? pool) (decodeClassName? pool) :=
  Follows.u2.bind fun _ _ => .resolve fun _ _ => trivial

theorem follows_handler :
    Follows limit (fun _ => True) (handler pool) (Code.decodeHandler pool) :=
  Follows.u2.bind fun _ _ => Follows.u2.bind fun _ _ => Follows.u2.bind fun _ _ =>
    (follows_className? limit).bind fun _ _ => .pure trivial

include fits

theorem follows_text : Follows limit Text.Fits (text pool) (decodeUtf8 pool) :=
  Follows.u2.bind fun _ _ => .resolve fun _ => fits.utf8

theorem follows_localVariable :
    Follows limit (fun entry => Text.Fits entry.descriptor) (localVariable pool)
      (Code.decodeLocal pool) :=
  Follows.u2.bind fun _ _ => Follows.u2.bind fun _ _ => (follows_text fits limit).bind fun _ _ =>
    (follows_text fits limit).bind fun _ described => Follows.u2.bind fun _ _ => .pure described

theorem knows_codeAttribute (name : String) :
    Knows CodeAttributeFits (codeAttribute pool name) (Code.known pool name) :=
  rel_ite (.some fun limit => (follows_localVariable fits limit).table.map fun _ fit => fit)
    (rel_ite (.some fun limit => (follows_localVariable fits limit).table.map fun _ fit => fit) .none)

theorem follows_code : Follows limit CodeFits (code pool) (Code.decode pool) := by
  refine Follows.u2.bind fun maxStack _ => Follows.u2.bind fun maxLocals _ => ?_
  refine Follows.u4.bind fun length short => ?_
  refine Follows.split length fun base array sized inRecord => ?_
  subst sized
  refine (Follows.attempt (settles_instructions fits short inRecord)).bind fun instructions fit => ?_
  refine (follows_handler limit).table.bind fun handlers _ => ?_
  refine follows_attributes fits (fun name => handles_adding ?_ (knows_codeAttribute fits name)) limit _
    ⟨fit, by simp [LocalsFit], by simp [LocalsFit]⟩
  intro state a kept added
  exact CodeFits.add kept added

theorem knows_commonAttribute (name : String) :
    Knows CommonFits (commonAttribute pool name) (CommonAttribute.known pool name) :=
  rel_ite (.some fun limit => (follows_text fits limit).map fun _ fit => fit)
    (rel_ite (.some fun limit => (follows_annotations fits limit).map fun _ fit => fit) .none)

theorem follows_field : Follows limit FieldFits (field pool) (Field.decode pool) := by
  refine Follows.u2.bind fun access _ => (follows_text fits limit).bind fun name _ => ?_
  refine (follows_text fits limit).bind fun descriptor described => ?_
  refine follows_attributes fits
    (fun name => handles_adding ?_ (knows_commonAttribute fits name)) limit _
    ⟨described, by simp, by simp⟩
  intro state a kept added
  exact FieldFits.add kept added

theorem follows_parametersFrom {tables : List (List AnnotationEntry)} (left : Nat)
    (first : ∀ table ∈ tables, ∀ entry ∈ table, AnnotationFits entry)
    (read : List (List AnnotationEntry))
    (second : ∀ table ∈ read, ∀ entry ∈ table, AnnotationFits entry)
    (small : read.length + left < UInt64.size) :
    Follows limit (∀ table ∈ ·, ∀ entry ∈ table, AnnotationFits entry)
      (parametersFrom pool left read.length (Method.joinTables tables read))
      (do
        let more ← Decoder.times (AnnotationEntry.decodeTable pool) left
        return Method.joinTables tables (read ++ more)) := by
  induction left generalizing read with
  | zero =>
      rw [Decoder.times, pure_bind, List.append_nil]
      exact .pure (joinTables_fit first second)
  | succ left ih =>
      rw [parametersFrom, Decoder.times, bind_assoc]
      refine (follows_annotations fits limit).bind fun entries fit => ?_
      rw [extendAt_joinTables tables read entries (by omega), liftM_pure, pure_bind]
      have sized : (read ++ [entries]).length = read.length + 1 := List.length_append
      have next := ih (read ++ [entries])
        (List.forall_mem_append.mpr ⟨second, List.forall_mem_singleton.mpr fit⟩) (by omega)
      rw [sized] at next
      simpa only [bind_assoc, pure_bind, List.append_assoc, List.singleton_append] using next

theorem follows_parameterAnnotations {method : Method} (holds : MethodFits method) :
    Follows limit MethodFits (parameterAnnotations pool method)
      (method.add <$> (.parameterAnnotations <$> Method.decodeParameterAnnotations pool)) := by
  unfold parameterAnnotations Method.decodeParameterAnnotations
  rw [map_bind, map_bind]
  refine Follows.u1.bind fun parameters _ => ?_
  have few : parameters.toNat < 256 := parameters.toNat_lt
  have tables := follows_parametersFrom fits limit parameters.toNat holds.parameterAnnotations []
    (by simp) (by change _ < 18446744073709551616; simp; omega)
  rw [joinTables_nil] at tables
  have joined := tables.bind (Q := MethodFits)
    (f := fun tables => pure { method with parameterAnnotations := tables })
    (g := fun tables => pure { method with parameterAnnotations := tables })
    fun tables fit => .pure { holds with parameterAnnotations := fit }
  rw [bind_assoc] at joined
  simp only [map_eq_pure_bind, bind_assoc, pure_bind]
  exact joined

theorem knows_methodAttribute {name : String}
    (other : ¬ (name = "RuntimeVisibleParameterAnnotations"
      ∨ name = "RuntimeInvisibleParameterAnnotations")) :
    Knows MethodAttributeFits (methodAttribute pool name) (Method.known pool name) := by
  unfold methodAttribute Method.known
  rw [if_neg other]
  refine rel_ite (.some fun limit => (follows_className limit).table.map fun _ _ => trivial) ?_
  refine rel_ite (.some fun limit => (follows_code fits limit).map fun _ fit => fit) ?_
  refine rel_ite (.some fun limit => (follows_elementValue fits limit).map fun _ fit => fit) ?_
  have common := knows_commonAttribute fits name
  generalize commonAttribute pool name = content at common
  generalize CommonAttribute.known pool name = decoder at common
  cases common with
  | none => exact .none
  | some follows => exact .some fun limit => (follows limit).map fun _ fit => fit

theorem follows_method : Follows limit MethodFits (method pool) (Method.decode pool) := by
  refine Follows.u2.bind fun access _ => (follows_text fits limit).bind fun name _ => ?_
  refine (follows_text fits limit).bind fun descriptor described => ?_
  refine follows_attributes fits (fun name => ?_) limit _
    ⟨described, by simp, by simp, by simp, by simp, by simp⟩
  by_cases parameters : name = "RuntimeVisibleParameterAnnotations"
      ∨ name = "RuntimeInvisibleParameterAnnotations"
  · rw [if_pos parameters]
    have known : Method.known pool name =
        some (.parameterAnnotations <$> Method.decodeParameterAnnotations pool) := by
      unfold Method.known
      rcases parameters with rfl | rfl <;> rfl
    rw [known]
    exact .some fun limit state holds => follows_parameterAnnotations fits limit holds
  · rw [if_neg parameters]
    refine handles_adding ?_ (knows_methodAttribute fits parameters)
    intro state a kept added
    exact MethodFits.add kept added

end Elements

theorem follows_record (limit : Nat) : Follows limit RecordFits record Record.decoder := by
  refine Follows.u4.bind fun found _ => Follows.ite (fun _ => .fail _) fun _ => ?_
  refine Follows.u2.bind fun minor _ => Follows.u2.bind fun major _ => ?_
  refine (follows_pool limit).bind fun constants fits => Follows.u2.bind fun access _ => ?_
  refine (follows_className limit).bind fun thisClass _ => ?_
  refine (follows_className? limit).bind fun superClass _ => ?_
  refine (follows_className limit).table.bind fun interfaces _ => ?_
  refine (follows_field fits limit).table.bind fun fields fieldsFit => ?_
  refine (follows_method fits limit).table.bind fun methods methodsFit => ?_
  refine follows_attributes fits
    (fun name => handles_adding ?_ (knows_commonAttribute fits name)) limit _
    ⟨by simp, by simp, fieldsFit, methodsFit⟩
  intro state a kept added
  exact RecordFits.add kept added

end ClassAtlas.ClassFile.Indexed

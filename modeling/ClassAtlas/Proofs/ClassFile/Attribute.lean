import ClassAtlas.ClassFile.Record
import ClassAtlas.Proofs.ClassFile.Decoding

/-!
Attribute tables. An attribute is a name, a length and a body; the body of a known attribute is the
layout of its content and nothing more, and any other body is arbitrary. One lemma turns what is known
about the contents of an owner's attributes into what its whole table describes. An attribute may be
repeated, and an owner either takes the last content or joins them all.
-/

namespace ClassAtlas.ClassFile

theorem Decodes.splitThen {β : Type} {f : Cursor → Decoder β}
    {T : List UInt8 → List UInt8 → β → Prop}
    (second : ∀ body, Decodes (f body) (T body.rest)) (n : Nat) :
    Decodes (Decoder.split n >>= f) fun bytes value =>
      ∃ body back, body.length = n ∧ bytes = body ++ back ∧ T body back value := by
  intro cursor value rest
  have run : (Decoder.split n >>= f).run cursor =
      (Decoder.bytes n >>= fun body => f { rest := body, offset := cursor.offset }).run cursor := by
    have cut : (Decoder.split n).run cursor = (Decoder.bytes n).run cursor >>= fun taken =>
        Pure.pure ({ rest := taken.1, offset := cursor.offset }, taken.2) := rfl
    change (Decoder.split n).run cursor >>= _ = _
    rw [cut, bind_assoc]
    rfl
  rw [run, (bind (bytes n) fun body => second { rest := body, offset := cursor.offset }) cursor value
    rest]
  constructor
  · rintro ⟨_, split, front, back, _, rfl, ⟨sized, rfl⟩, spelled⟩
    exact ⟨_, split, _, back, sized, rfl, spelled⟩
  · rintro ⟨_, split, body, back, sized, rfl, spelled⟩
    exact ⟨_, split, body, back, body, rfl, ⟨sized, rfl⟩, spelled⟩

/-- A four-byte length, as many bytes of body, and what follows. -/
theorem Decodes.lengthPrefixed {β : Type} {f : Cursor → Decoder β}
    {T : List UInt8 → List UInt8 → β → Prop}
    (second : ∀ body, Decodes (f body) (T body.rest)) :
    Decodes (Decoder.u4 >>= fun n => Decoder.split n >>= f) fun bytes value =>
      ∃ body back, body.length < UInt32.size ∧ bytes = ClassFile.numeral 4 body.length ++ (body ++ back) ∧
        T body back value := by
  refine (bind (numeral 4) (splitThen second)).congr fun bytes value => ?_
  constructor
  · rintro ⟨_, _, _, rfl, ⟨small, rfl⟩, body, back, rfl, rfl, spelled⟩
    exact ⟨body, back, small, rfl, spelled⟩
  · rintro ⟨body, back, small, rfl, spelled⟩
    exact ⟨_, _, _, rfl, ⟨small, rfl⟩, body, back, rfl, rfl, spelled⟩

/-- Running a decoder on a body that it has to use up. -/
theorem Decodes.exactly {α : Type} {d : Decoder α} {S : List UInt8 → α → Prop}
    (decodes : Decodes d S) (body : Cursor) (name : String) :
    Decodes (Decoder.within body d >>= fun (value, after) =>
        if after.rest.isEmpty then Pure.pure (some value)
        else Decoder.fail (.trailingBytes name after.rest.length))
      fun bytes value => bytes = [] ∧ ∃ content, S body.rest content ∧ value = some content := by
  have ends (found : α × Cursor) :
      Decodes (if found.2.rest.isEmpty then Pure.pure (some found.1)
          else Decoder.fail (.trailingBytes name found.2.rest.length))
        fun bytes value => bytes = [] ∧ found.2.rest = [] ∧ value = some found.1 := by
    cases remaining : found.2.rest with
    | nil => exact (pure (some found.1)).congr (by simp)
    | cons byte more => exact (fail _).congr (by simp)
  refine (bind (resolve (d.run body)) ends).congr fun bytes value => ?_
  constructor
  · rintro ⟨_, _, ⟨content, remaining, offset⟩, rfl, ⟨rfl, ran⟩, rfl, used, rfl⟩
    obtain rfl : remaining = [] := used
    obtain ⟨front, split, spelled⟩ := (decodes body content []).mp ⟨offset, ran⟩
    rw [List.append_nil] at split
    exact ⟨rfl, content, split ▸ spelled, rfl⟩
  · rintro ⟨rfl, content, spelled, rfl⟩
    obtain ⟨offset, ran⟩ := (decodes body content []).mpr
      ⟨body.rest, (List.append_nil _).symm, spelled⟩
    exact ⟨[], [], _, rfl, ⟨rfl, ran⟩, rfl, rfl, rfl⟩

/-- The attributes that an owner knows: their names, how a content is written, and what it means
under one of the names. -/
structure AttributeFormat (K α : Type) where
  names : List String
  encode : K → List UInt8
  Means : ConstantPool → String → K → α → Prop

inductive AttributeLayout (K : Type) where
  | known (nameIndex : UInt16) (content : K)
  | skipped (nameIndex : UInt16) (body : List UInt8)

namespace AttributeFormat

variable {K α : Type} (format : AttributeFormat K α)

def encodeAttribute : AttributeLayout K → List UInt8
  | .known nameIndex content =>
    word2 nameIndex ++ (numeral 4 (format.encode content).length ++ format.encode content)
  | .skipped nameIndex body => word2 nameIndex ++ (numeral 4 body.length ++ body)

/-- What the body of an attribute called `name` comes to. -/
def BodyMeans (pool : ConstantPool) (name : String) (body : List UInt8) (entry : Option α) : Prop :=
  (name ∉ format.names ∧ entry = none) ∨ ∃ layout value, body = format.encode layout ∧
    format.Means pool name layout value ∧ entry = some value

/-- A known attribute gives its content and any other nothing. The length of a body fits its field. -/
def AttributeMeans (pool : ConstantPool) : AttributeLayout K → Option α → Prop
  | .known nameIndex content, entry =>
    (format.encode content).length < UInt32.size ∧ ∃ name value, pool.Text nameIndex.toNat name ∧
      format.Means pool name content value ∧ entry = some value
  | .skipped nameIndex body, entry =>
    body.length < UInt32.size ∧ ∃ name, pool.Text nameIndex.toNat name ∧ name ∉ format.names ∧ entry = none

/-- The contents of the known attributes in order. -/
def TableMeans (pool : ConstantPool) (layouts : List (AttributeLayout K)) (values : List α) : Prop :=
  ∃ entries, ClassFile.TableMeans (format.AttributeMeans pool) layouts entries ∧
    values = entries.filterMap id

/-- The decoders an owner picks by name follow the format. -/
structure FollowedBy (known : ConstantPool → String → Option (Decoder α)) : Prop where
  unknown (pool : ConstantPool) (name : String) : known pool name = none ↔ name ∉ format.names
  decodes {pool : ConstantPool} {name : String} {d : Decoder α} :
    known pool name = some d → Decodes d (Written format.encode (format.Means pool name))
  named {pool : ConstantPool} {name : String} {content : K} {value : α} :
    format.Means pool name content value → name ∈ format.names

end AttributeFormat

theorem decodes_utf8 (pool : ConstantPool) :
    Decodes (decodeUtf8 pool) (Written word2 fun index text => pool.Text index.toNat text) := by
  refine (Decodes.u2.thenResolve (f := pool.utf8)).congr fun bytes text => ?_
  simp only [Written, exists_eq_left, ConstantPool.utf8_eq_ok_iff]

theorem decodes_className (pool : ConstantPool) :
    Decodes (decodeClassName pool) (Written word2 fun index name =>
      pool.NamesClass index.toNat name) := by
  refine (Decodes.u2.thenResolve (f := pool.className)).congr fun bytes text => ?_
  simp only [Written, exists_eq_left, ConstantPool.className_eq_ok_iff]

theorem decodes_className? (pool : ConstantPool) :
    Decodes (decodeClassName? pool) (Written word2 fun index name =>
      pool.NamesOptionalClass index.toNat name) := by
  refine (Decodes.u2.thenResolve (f := pool.className?)).congr fun bytes text => ?_
  simp only [Written, exists_eq_left, ConstantPool.className?_eq_ok_iff]

namespace AttributeFormat.FollowedBy

variable {K α : Type} {format : AttributeFormat K α}
  {known : ConstantPool → String → Option (Decoder α)}

theorem decodes_entry (follows : format.FollowedBy known) (pool : ConstantPool) :
    Decodes (Decoder.attributeEntry pool (known pool))
      (Written format.encodeAttribute (format.AttributeMeans pool)) := by
  -- the index of the name and its resolution are read as one
  rw [Decoder.attributeEntry, ← bind_assoc]
  refine ((decodes_utf8 pool).bind fun name => Decodes.lengthPrefixed
    (T := fun body bytes entry => bytes = [] ∧ format.BodyMeans pool name body entry)
    fun body => ?_).congr fun bytes entry => ?_
  · cases picked : known pool name with
    | none =>
        have unknown := (follows.unknown pool name).mp picked
        refine (Decodes.pure none).congr fun bytes entry => ?_
        constructor
        · rintro ⟨rfl, rfl⟩
          exact ⟨rfl, .inl ⟨unknown, rfl⟩⟩
        · rintro ⟨rfl, ⟨-, rfl⟩ | ⟨layout, value, -, means, -⟩⟩
          · exact ⟨rfl, rfl⟩
          · exact absurd (follows.named means) unknown
    | some d =>
        have listed : ¬ name ∉ format.names := by
          rw [← follows.unknown pool name, picked]
          simp
        refine ((follows.decodes picked).exactly body name).congr fun bytes entry => ?_
        constructor
        · rintro ⟨rfl, value, ⟨layout, written, means⟩, rfl⟩
          exact ⟨rfl, .inr ⟨layout, value, written, means, rfl⟩⟩
        · rintro ⟨rfl, ⟨unknown, -⟩ | ⟨layout, value, written, means, rfl⟩⟩
          · exact absurd unknown listed
          · exact ⟨rfl, value, ⟨layout, written, means⟩, rfl⟩
  · constructor
    · rintro ⟨_, _, name, rfl, ⟨index, rfl, named⟩, body, _, small, rfl, rfl,
        ⟨unknown, rfl⟩ | ⟨layout, value, rfl, means, rfl⟩⟩
      · exact ⟨.skipped index body, by simp [encodeAttribute], small, name, named, unknown, rfl⟩
      · exact ⟨.known index layout, by simp [encodeAttribute], small, name, value, named, means, rfl⟩
    · rintro ⟨layout, rfl, described⟩
      cases layout with
      | known index layout =>
          obtain ⟨small, name, value, named, means, rfl⟩ := described
          exact ⟨_, _, name, rfl, ⟨index, rfl, named⟩, _, [], small, by simp, rfl,
            .inr ⟨layout, value, rfl, means, rfl⟩⟩
      | skipped index body =>
          obtain ⟨small, name, named, unknown, rfl⟩ := described
          exact ⟨_, _, name, rfl, ⟨index, rfl, named⟩, body, [], small, by simp, rfl,
            .inl ⟨unknown, rfl⟩⟩

/-- The attribute table of an owner. -/
theorem decodes_attributes (follows : format.FollowedBy known) (pool : ConstantPool) :
    Decodes (Decoder.attributes pool (known pool))
      (Written (encodeTable format.encodeAttribute) (format.TableMeans pool)) :=
  (follows.decodes_entry pool).table.thenPure

end AttributeFormat.FollowedBy

/-- A decoder for one kind of content, as a decoder for the contents of its owner. -/
theorem Decodes.inject {L K α β : Type} {d : Decoder α} {encode : L → List UInt8}
    {Means : L → α → Prop} {encodeAny : K → List UInt8} {MeansAny : K → β → Prop}
    (decodes : Decodes d (Written encode Means)) (wrap : α → β) (kind : L → K)
    (written : ∀ layout, encodeAny (kind layout) = encode layout)
    (means : ∀ content value, MeansAny content value ↔
      ∃ layout, content = kind layout ∧ ∃ a, Means layout a ∧ value = wrap a) :
    Decodes (wrap <$> d) (Written encodeAny MeansAny) := by
  refine (decodes.map wrap).congr fun bytes value => ?_
  constructor
  · intro ⟨layout, spelled, described⟩
    refine ⟨kind layout, ?_, (means _ value).mpr ⟨layout, rfl, described⟩⟩
    rw [written, spelled]
  · intro ⟨content, spelled, described⟩
    obtain ⟨layout, rfl, found⟩ := (means content value).mp described
    refine ⟨layout, ?_, found⟩
    rw [← written, spelled]

section Repetition

variable {σ α β : Type} {add : σ → α → σ}

theorem foldl_kept (get : σ → β) (step : ∀ owner content, get (add owner content) = get owner)
    (contents : List α) (owner : σ) : get (contents.foldl add owner) = get owner := by
  induction contents generalizing owner with
  | nil => rfl
  | cons content contents ih => rw [List.foldl_cons, ih, step]

/-- Where a repeated attribute replaces what was there, the last one counts. -/
theorem foldl_last (get : σ → Option β) (pick : α → Option β)
    (step : ∀ owner content, get (add owner content) = (pick content).or (get owner))
    (contents : List α) (owner : σ) :
    get (contents.foldl add owner) = (contents.filterMap pick).getLast?.or (get owner) := by
  induction contents generalizing owner with
  | nil => rfl
  | cons content contents ih =>
      rw [List.foldl_cons, ih, step]
      cases picked : pick content with
      | none => rw [List.filterMap_cons_none picked, Option.none_or]
      | some value =>
          rw [List.filterMap_cons_some picked, List.getLast?_cons, Option.some_or, Option.or_some,
            Option.some_or]

/-- Where a repeated attribute adds to what was there, all of them count. -/
theorem foldl_joined (get : σ → List β) (pick : α → List β)
    (step : ∀ owner content, get (add owner content) = get owner ++ pick content)
    (contents : List α) (owner : σ) :
    get (contents.foldl add owner) = get owner ++ contents.flatMap pick := by
  induction contents generalizing owner with
  | nil => rw [List.flatMap_nil, List.append_nil, List.foldl_nil]
  | cons content contents ih => rw [List.foldl_cons, ih, step, List.append_assoc, List.flatMap_cons]

end Repetition

end ClassAtlas.ClassFile

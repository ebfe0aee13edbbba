import ClassAtlas.Graph.Legend
import ClassAtlas.Proofs.NameSet

/-!
The groups of a classification. A key of the classification stands for a node, and several keys may
stand for one: a node then has the label of the last of its keys, in the order of their bytes. Main
statement: the groups of a legend are those of the labels that nodes have, in order and each once; a
layer keeps its style, and the others take the colours of the palette by their turns.
-/

namespace ClassAtlas.Graph.Legend

/-- The node that a key stands for, where files of `types` are resources. -/
inductive StandsFor (types : List String) : String → String → Prop where
  | rootFile {key : String} (typed : Name.hasFileType key (types.map ResourceRule.withoutDots))
      (bare : '/' ∉ key.toList) : StandsFor types key ("/" ++ key)
  | path {key : String} (divided : '/' ∈ key.toList) : StandsFor types key key
  | dotted {key node : String}
      (untyped : ¬ Name.hasFileType key (types.map ResourceRule.withoutDots))
      (bare : '/' ∉ key.toList)
      (replaced : node.toList = key.toList.map fun c => if c = '.' then '/' else c) :
      StandsFor types key node

theorem standsFor_iff {types : List String} {key node : String} :
    StandsFor types key node ↔ nodeOfKey ⟨types⟩ key = node := by
  unfold nodeOfKey ResourceRule.nodeName?
  constructor
  · intro stands
    cases stands with
    | rootFile typed bare => simp [typed, bare]
    | path divided => by_cases typed : Name.hasFileType key (types.map ResourceRule.withoutDots) <;>
        simp [typed, divided]
    | dotted untyped bare replaced => simp [untyped, bare, ← replaced]
  · rintro rfl
    by_cases divided : '/' ∈ key.toList
    · have same : StandsFor types key key := .path divided
      by_cases typed : Name.hasFileType key (types.map ResourceRule.withoutDots) <;>
        simpa [typed, divided] using same
    · by_cases typed : Name.hasFileType key (types.map ResourceRule.withoutDots)
      · simpa [typed, divided] using StandsFor.rootFile typed divided
      · simpa [typed, divided] using StandsFor.dotted typed divided String.toList_ofList

/-- The label that a classification gives a key: the last one where there are several. -/
def Labels (entries : List (String × String)) (key label : String) : Prop :=
  ∃ before after, entries = before ++ (key, label) :: after ∧ key ∉ after.map (·.1)

/-- The label of a node is that of the last of its keys. -/
def Classifies (types : List String) (entries : List (String × String)) (node label : String) :
    Prop :=
  ∃ key, StandsFor types key node ∧ Labels entries key label ∧
    ∀ other ∈ entries.map (·.1), StandsFor types other node → other ≠ key →
      Text.utf8 other < Text.utf8 key

section Lookup

variable {types : List String} {entries : List (String × String)} {node label : String}

theorem lookup_ofList_iff {key : String} :
    (NameMap.ofList entries).lookup key = some label ↔ Labels entries key label := by
  rw [NameMap.lookup_ofList, Option.map_eq_some_iff]
  constructor
  · rintro ⟨entry, last, rfl⟩
    obtain ⟨before, after, parts, same, absent⟩ := NameMap.getLast?_filter_eq_some_iff.mp last
    obtain rfl : entry.1 = key := eq_of_beq same
    refine ⟨before, after, parts, ?_⟩
    intro later
    obtain ⟨other, member, equal⟩ := List.mem_map.mp later
    exact absent other member (beq_iff_eq.mpr equal)
  · rintro ⟨before, after, parts, absent⟩
    refine ⟨(key, label), NameMap.getLast?_filter_eq_some_iff.mpr ⟨before, after, parts, ?_, ?_⟩, rfl⟩
    · exact beq_self_eq_true key
    · intro other member equal
      exact absent (eq_of_beq equal ▸ List.mem_map_of_mem member)

/-- The keys of a node in a map, and the last of them. -/
theorem lookup_classes :
    (ofMap entries types).classes.lookup node =
      ((NameMap.ofList entries).filter (nodeOfKey ⟨types⟩ ·.1 == node)).getLast?.map (·.2) := by
  unfold ofMap
  rw [NameMap.lookup_ofList, List.filter_map, List.getLast?_map, Option.map_map]
  rfl

theorem lookup_classes_eq_some_iff :
    (ofMap entries types).classes.lookup node = some label ↔ Classifies types entries node label := by
  have ascending := NameMap.ascending_keys entries
  have last {key : String} := NameMap.getLast?_filter_key_iff (k := key) (v := label) ascending
    (nodeOfKey ⟨types⟩ · == node)
  rw [lookup_classes, Option.map_eq_some_iff]
  constructor
  · rintro ⟨⟨key, _⟩, found, rfl⟩
    obtain ⟨same, member, greatest⟩ := last.mp found
    have labelled := lookup_ofList_iff.mp ((NameMap.mem_iff_lookup ascending).mp member)
    refine ⟨key, standsFor_iff.mpr (eq_of_beq same), labelled, ?_⟩
    intro other given stands different
    exact Text.utf8_lt (greatest other ((NameMap.mem_keys ..).mpr given)
      (beq_iff_eq.mpr (standsFor_iff.mp stands)) different)
  · rintro ⟨key, stands, labelled, greatest⟩
    have member := (NameMap.mem_iff_lookup ascending).mpr (lookup_ofList_iff.mpr labelled)
    refine ⟨(key, label), last.mpr ⟨beq_iff_eq.mpr (standsFor_iff.mp stands), member, ?_⟩, rfl⟩
    intro other given same different
    exact Text.utf8_lt_iff.mp (greatest other ((NameMap.mem_keys ..).mp given)
      (standsFor_iff.mpr (eq_of_beq same)) different)

theorem lookup_classes_eq_none_iff :
    (ofMap entries types).classes.lookup node = none ↔
      ∀ key ∈ entries.map (·.1), ¬ StandsFor types key node := by
  rw [lookup_classes, Option.map_eq_none_iff, List.getLast?_eq_none_iff, List.filter_eq_nil_iff]
  constructor
  · intro none key given stands
    obtain ⟨entry, member, rfl⟩ := List.mem_map.mp ((NameMap.mem_keys entries key).mpr given)
    exact none entry member (beq_iff_eq.mpr (standsFor_iff.mp stands))
  · intro none entry member same
    have given := (NameMap.mem_keys entries entry.1).mp (List.mem_map_of_mem member)
    exact none entry.1 given (standsFor_iff.mpr (eq_of_beq same))

theorem mem_classes_iff :
    (node, label) ∈ (ofMap entries types).classes ↔ Classifies types entries node label := by
  rw [← lookup_classes_eq_some_iff]
  exact NameMap.mem_iff_lookup (NameMap.ascending_keys _)

end Lookup

section Styles

/-- A label of an architectural layer. -/
def IsLayer (label : String) : Prop :=
  label ∈ layerStyles.map (·.label)

instance (label : String) : Decidable (IsLayer label) :=
  inferInstanceAs (Decidable (_ ∈ _))

theorem find?_layerStyles_eq_none_iff {label : String} :
    layerStyles.find? (·.label == label) = none ↔ ¬ IsLayer label := by
  rw [List.find?_eq_none, IsLayer, List.mem_map]
  simp

theorem label_of_find? {groups : List GroupStyle} {label : String} {group : GroupStyle}
    (found : groups.find? (·.label == label) = some group) : group.label = label := by
  have equal := List.find?_some found
  exact eq_of_beq equal

@[simp] theorem map_label_stylesFrom (turn : Nat) (labels : List String) :
    (stylesFrom turn labels).map (·.label) = labels := by
  induction labels generalizing turn with
  | nil => rfl
  | cons label labels ih =>
      unfold stylesFrom
      split
      case h_1 layer found => rw [List.map_cons, label_of_find? found, ih]
      case h_2 => rw [List.map_cons, ih]

/-- A group of a layer has its style from the layer. -/
theorem find?_of_mem_stylesFrom {turn : Nat} {labels : List String} {group : GroupStyle}
    (member : group ∈ stylesFrom turn labels) (layer : IsLayer group.label) :
    layerStyles.find? (·.label == group.label) = some group := by
  induction labels generalizing turn with
  | nil => cases member
  | cons label labels ih =>
      unfold stylesFrom at member
      split at member
      case h_1 style found =>
        obtain rfl | later := List.mem_cons.mp member
        · rw [label_of_find? found, found]
        · exact ih later
      case h_2 missing =>
        obtain rfl | later := List.mem_cons.mp member
        · exact absurd layer (find?_layerStyles_eq_none_iff.mp missing)
        · exact ih later

/-- Only groups of no layer take a turn. -/
theorem filter_stylesFrom (turn : Nat) (labels : List String) :
    (stylesFrom turn labels).filter (fun group => ¬ IsLayer group.label) =
      ((labels.filter fun label => ¬ IsLayer label).zipIdx turn).map fun (label, turn) =>
        ⟨label, paletteColor turn, "filled"⟩ := by
  induction labels generalizing turn with
  | nil => rfl
  | cons label labels ih =>
      unfold stylesFrom
      split
      case h_1 style found =>
        have layer : IsLayer label := by
          by_contra other
          rw [find?_layerStyles_eq_none_iff.mpr other] at found
          cases found
        have same : IsLayer style.label := label_of_find? found ▸ layer
        rw [List.filter_cons_of_neg (by simpa using same),
          List.filter_cons_of_neg (by simpa using layer), ih]
      case h_2 missing =>
        have other : ¬ IsLayer label := find?_layerStyles_eq_none_iff.mp missing
        rw [List.filter_cons_of_pos (by simpa using other),
          List.filter_cons_of_pos (by simpa using other), List.zipIdx_cons, List.map_cons, ih]

/-- A list of groups where no two have one label is searched by label. -/
theorem find?_label_eq_some_iff {groups : List GroupStyle} {label : String} {group : GroupStyle}
    (distinct : (groups.map (·.label)).Nodup) :
    groups.find? (·.label == label) = some group ↔ group ∈ groups ∧ group.label = label := by
  constructor
  · intro found
    exact ⟨List.mem_of_find?_eq_some found, label_of_find? found⟩
  · rintro ⟨member, rfl⟩
    cases found : groups.find? (·.label == group.label) with
    | none =>
        exact absurd (beq_self_eq_true group.label) (List.find?_eq_none.mp found group member)
    | some first =>
        have same := List.inj_on_of_nodup_map distinct (List.mem_of_find?_eq_some found) member
          (label_of_find? found)
        rw [same]

end Styles

/-- A legend that shows the labels of the nodes of a classification. -/
structure Represents (types : List String) (entries : List (String × String)) (legend : Legend) :
    Prop where
  ascending : NameSet.ByteAscending (legend.groups.map (·.label))
  label_iff : ∀ label, label ∈ legend.groups.map (·.label) ↔
    ∃ node, Classifies types entries node label
  group_iff : ∀ node group, legend.groupOf? node = some group ↔
    group ∈ legend.groups ∧ Classifies types entries node group.label
  none_iff : ∀ node, legend.groupOf? node = none ↔
    ∀ key ∈ entries.map (·.1), ¬ StandsFor types key node
  layer : ∀ group ∈ legend.groups, ∀ style ∈ layerStyles, group.label = style.label → group = style
  turn : ∀ turn group, (legend.groups.filter fun group => ¬ IsLayer group.label)[turn]? = some group →
    palette[turn % 6]? = some group.color ∧ group.style = "filled"

section Groups

variable {types : List String} {entries : List (String × String)}

theorem map_label_groups :
    (ofMap entries types).groups.map (·.label) =
      NameSet.ofList ((ofMap entries types).classes.map (·.2)) :=
  map_label_stylesFrom 0 _

theorem ascending_labels : NameSet.Ascending ((ofMap entries types).groups.map (·.label)) := by
  rw [map_label_groups]
  exact NameSet.ascending_ofList _

theorem nodup_labels : ((ofMap entries types).groups.map (·.label)).Nodup :=
  ascending_labels.imp ne_of_lt

theorem mem_labels_iff {label : String} :
    label ∈ (ofMap entries types).groups.map (·.label) ↔
      ∃ node, Classifies types entries node label := by
  rw [map_label_groups, NameSet.mem_ofList, List.mem_map]
  constructor
  · intro ⟨⟨node, _⟩, member, same⟩
    exact ⟨node, same ▸ mem_classes_iff.mp member⟩
  · intro ⟨node, classified⟩
    exact ⟨(node, label), mem_classes_iff.mpr classified, rfl⟩

theorem groupOf?_eq_some_iff {node : String} {group : GroupStyle} :
    (ofMap entries types).groupOf? node = some group ↔
      group ∈ (ofMap entries types).groups ∧ Classifies types entries node group.label := by
  unfold groupOf?
  constructor
  · intro found
    obtain ⟨label, classified, among⟩ := Option.bind_eq_some_iff.mp found
    obtain ⟨member, same⟩ := (find?_label_eq_some_iff nodup_labels).mp among
    rw [← same] at classified
    exact ⟨member, lookup_classes_eq_some_iff.mp classified⟩
  · intro ⟨member, classified⟩
    rw [lookup_classes_eq_some_iff.mpr classified]
    exact (find?_label_eq_some_iff nodup_labels).mpr ⟨member, rfl⟩

theorem groupOf?_eq_none_iff {node : String} :
    (ofMap entries types).groupOf? node = none ↔
      ∀ key ∈ entries.map (·.1), ¬ StandsFor types key node := by
  rw [← lookup_classes_eq_none_iff]
  cases classified : (ofMap entries types).classes.lookup node with
  | none => simp [groupOf?, classified]
  | some label =>
      -- the group of the node's label is among the groups
      have shown := mem_labels_iff.mpr ⟨node, lookup_classes_eq_some_iff.mp classified⟩
      obtain ⟨group, member, rfl⟩ := List.mem_map.mp shown
      have found := groupOf?_eq_some_iff.mpr ⟨member, lookup_classes_eq_some_iff.mp classified⟩
      simp [found]

theorem eq_layer {group style : GroupStyle} (member : group ∈ (ofMap entries types).groups)
    (known : style ∈ layerStyles) (same : group.label = style.label) : group = style := by
  have distinct : (layerStyles.map (·.label)).Nodup := by decide
  have layer : IsLayer group.label := same ▸ List.mem_map_of_mem known
  have found := find?_of_mem_stylesFrom member layer
  rw [(find?_label_eq_some_iff distinct).mpr ⟨known, same.symm⟩] at found
  exact (Option.some.inj found).symm

theorem getElem?_palette (turn : Nat) : palette[turn % 6]? = some (paletteColor turn) := by
  have inside : turn % 6 < palette.length := Nat.mod_lt turn (by decide)
  have size : palette.length = 6 := rfl
  rw [paletteColor, size, List.getD_eq_getElem?_getD, List.getElem?_eq_getElem inside,
    Option.getD_some]

theorem getElem?_others {turn : Nat} {group : GroupStyle}
    (others : ((ofMap entries types).groups.filter
      fun group => ¬ IsLayer group.label)[turn]? = some group) :
    palette[turn % 6]? = some group.color ∧ group.style = "filled" := by
  rw [ofMap, filter_stylesFrom, List.getElem?_map, List.getElem?_zipIdx, Option.map_map] at others
  obtain ⟨label, _, rfl⟩ := Option.map_eq_some_iff.mp others
  simpa using getElem?_palette turn

theorem represents_ofMap (types : List String) (entries : List (String × String)) :
    Represents types entries (ofMap entries types) where
  ascending := ascending_labels.bytes
  label_iff _ := mem_labels_iff
  group_iff _ _ := groupOf?_eq_some_iff
  none_iff _ := groupOf?_eq_none_iff
  layer _ member _ known same := eq_layer member known same
  turn _ _ others := getElem?_others others

end Groups

end ClassAtlas.Graph.Legend

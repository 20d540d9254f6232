import GraphStore.Graph.Node
import GraphStore.Graph.Relationship
import Mathlib.Data.List.Induction
import Mathlib.Data.List.Nodup

/-!
# Changes of nodes and relationships

Lists of properties and of labels behind a change. Main statement: the last value that a change sets
for a key counts, then a removal, then the former value; what stays keeps its place, and what is new
stands behind it in the order in which the change names it first.
-/

set_option autoImplicit false

namespace GraphStore

/-- The items that are not there, each once, in the order in which they come first. -/
def newcomers (there items : List String) : List String :=
  (items.filter fun item => !there.contains item).eraseDups

theorem mem_newcomers_iff {there items : List String} {item : String} :
    item ∈ newcomers there items ↔ item ∈ items ∧ item ∉ there := by
  simp [newcomers]

/-!
## Labels
-/

theorem nodup_addLabel {labels : List String} (distinct : labels.Nodup) (label : String) :
    (Node.addLabel labels label).Nodup := by
  rw [Node.addLabel]
  split
  · exact distinct
  next new =>
    rw [← List.concat_eq_append]
    exact distinct.concat (by simpa using new)

theorem nodup_foldl_addLabel {there : List String} (distinct : there.Nodup) (labels : List String) :
    (labels.foldl Node.addLabel there).Nodup := by
  induction labels generalizing there with
  | nil => exact distinct
  | cons label rest ih => exact ih (nodup_addLabel distinct label)

theorem foldl_addLabel (labels there : List String) :
    labels.foldl Node.addLabel there = there ++ newcomers there labels := by
  induction labels generalizing there with
  | nil => simp [newcomers]
  | cons label rest ih =>
      rw [List.foldl_cons, ih, Node.addLabel]
      by_cases listed : there.contains label = true
      · rw [if_pos listed, newcomers, newcomers, List.filter_cons, listed]
        rfl
      · have later : newcomers (there ++ [label]) rest =
            ((rest.filter fun item => !there.contains item).filter
              fun item => !item == label).eraseDups := by
          rw [newcomers, List.filter_filter]
          congr 1
          refine List.filter_congr fun item _ => ?_
          by_cases same : item = label <;> simp [same]
        rw [if_neg listed, later, newcomers, List.filter_cons,
          if_pos (by simpa using listed), List.eraseDups_cons, List.append_assoc,
          List.singleton_append]

/-!
## Properties
-/

namespace Property

variable {properties base changes : List Property} {removed : List String} {property : Property}
  {key : String}

def keys (properties : List Property) : List String := properties.map Property.key

/-- The value in the last property with a key. -/
def lastValue? (properties : List Property) (key : String) : Option PropertyValue :=
  lookup? properties.reverse key

theorem lookup?_cons (first : Property) (rest : List Property) (key : String) :
    lookup? (first :: rest) key =
      if first.key = key then some first.value else lookup? rest key := by
  by_cases same : first.key = key
  · simp [lookup?, same]
  · simp [lookup?, same, beq_false_of_ne same]

theorem lookup?_eq_none_iff : lookup? properties key = none ↔ key ∉ keys properties := by
  simp [lookup?, keys]

theorem lookup?_of_mem (distinct : (keys properties).Nodup) (member : property ∈ properties) :
    lookup? properties property.key = some property.value := by
  induction properties with
  | nil => cases member
  | cons first rest ih =>
      obtain ⟨new, others⟩ := List.nodup_cons.mp distinct
      rw [lookup?_cons]
      rcases List.mem_cons.mp member with rfl | later
      · rw [if_pos rfl]
      · have different : first.key ≠ property.key := fun same =>
          new (List.mem_map.mpr ⟨property, later, same.symm⟩)
        rw [if_neg different, ih others later]

/-- Properties with distinct keys are what their keys and the values of these say. -/
theorem eq_filterMap_keys (distinct : (keys properties).Nodup) :
    properties =
      (keys properties).filterMap fun key => (lookup? properties key).map (Property.mk key) := by
  rw [keys, List.filterMap_map]
  refine Eq.trans (List.map_id properties).symm ?_
  rw [← List.filterMap_eq_map]
  refine List.filterMap_congr fun property member => ?_
  rw [Function.comp_apply, Function.comp_apply, lookup?_of_mem distinct member]
  rfl

theorem lastValue?_concat (front : List Property) (last : Property) (key : String) :
    lastValue? (front ++ [last]) key =
      if last.key = key then some last.value else lastValue? front key := by
  rw [lastValue?, List.reverse_append, List.reverse_singleton, List.singleton_append, lookup?_cons,
    lastValue?]

theorem lastValue?_eq_none_iff : lastValue? properties key = none ↔ key ∉ keys properties := by
  rw [lastValue?, lookup?_eq_none_iff, keys, List.map_reverse, List.mem_reverse, keys]

/-!
## One property more
-/

theorem lookup?_set (change : Property) (properties : List Property) (key : String) :
    lookup? (change.set properties) key =
      if change.key = key then some change.value else lookup? properties key := by
  induction properties with
  | nil => rw [set, lookup?_cons]
  | cons first rest ih =>
      rw [set]
      split
      next here =>
        rw [lookup?_cons, lookup?_cons, here]
        split <;> rfl
      next elsewhere =>
        rw [lookup?_cons, lookup?_cons, ih]
        by_cases isFirst : first.key = key
        · have other : change.key ≠ key := fun same => elsewhere (isFirst.trans same.symm)
          rw [if_pos isFirst, if_neg other, if_pos isFirst]
        · rw [if_neg isFirst, if_neg isFirst]

/-- A key is put among the keys as a label is among labels. -/
theorem keys_set (change : Property) (properties : List Property) :
    keys (change.set properties) = Node.addLabel (keys properties) change.key := by
  induction properties with
  | nil => rfl
  | cons first rest ih =>
      rw [set]
      split
      next here => simp [keys, Node.addLabel, here]
      next elsewhere =>
        have shape : keys (first :: change.set rest) = first.key :: keys (change.set rest) := rfl
        have passed : (keys (first :: rest)).contains change.key =
            (keys rest).contains change.key := by
          simp [keys, Ne.symm elsewhere]
        rw [shape, ih, Node.addLabel, Node.addLabel, passed]
        split <;> rfl

/-!
## All properties of a change
-/

/-- The properties that a change does not remove. -/
def kept (base : List Property) (removed : List String) : List Property :=
  base.filter fun property => !removed.contains property.key

theorem mem_keys_kept_iff : key ∈ keys (kept base removed) ↔ key ∈ keys base ∧ key ∉ removed := by
  simp only [keys, kept, List.mem_map, List.mem_filter, Bool.not_eq_true', List.contains_eq_mem,
    decide_eq_false_iff_not]
  constructor
  · rintro ⟨property, ⟨member, stays⟩, rfl⟩
    exact ⟨⟨property, member, rfl⟩, stays⟩
  · rintro ⟨⟨property, member, rfl⟩, stays⟩
    exact ⟨property, ⟨member, stays⟩, rfl⟩

theorem nodup_keys_kept (distinct : (keys base).Nodup) : (keys (kept base removed)).Nodup :=
  distinct.sublist (List.filter_sublist.map Property.key)

theorem lookup?_kept : lookup? (kept base removed) key =
    if key ∈ removed then none else lookup? base key := by
  split
  next gone => exact lookup?_eq_none_iff.mpr fun member => (mem_keys_kept_iff.mp member).2 gone
  next stays =>
    rw [lookup?, kept, List.find?_filter, lookup?]
    congr 2
    funext property
    by_cases same : property.key = key <;> simp [same, stays]

theorem merge_concat (front : List Property) (last : Property) :
    merge base (front ++ [last]) removed = last.set (merge base front removed) := by
  rw [merge, List.foldl_append]
  rfl

theorem lookup?_merge : lookup? (merge base changes removed) key =
    (lastValue? changes key).or (if key ∈ removed then none else lookup? base key) := by
  induction changes using List.reverseRecOn with
  | nil => exact lookup?_kept
  | append_singleton front last ih =>
      rw [merge_concat, lookup?_set, lastValue?_concat, ih]
      split <;> rfl

theorem keys_merge : keys (merge base changes removed) =
    (keys changes).foldl Node.addLabel (keys (kept base removed)) := by
  induction changes using List.reverseRecOn with
  | nil => rfl
  | append_singleton front last ih =>
      have longer : keys (front ++ [last]) = keys front ++ [last.key] := List.map_append
      rw [merge_concat, keys_set, ih, longer, List.foldl_append]
      rfl

theorem nodup_keys_merge (distinct : (keys base).Nodup) :
    (keys (merge base changes removed)).Nodup := by
  rw [keys_merge]
  exact nodup_foldl_addLabel (nodup_keys_kept distinct) _

/-- What stays comes first, with new values in the old places, and then what is new. -/
theorem merge_eq (distinct : (keys base).Nodup) : merge base changes removed =
    ((kept base removed).map fun property =>
        { property with value := (lastValue? changes property.key).getD property.value }) ++
      (newcomers (keys (kept base removed)) (keys changes)).filterMap fun key =>
        (lastValue? changes key).map (Property.mk key) := by
  rw [eq_filterMap_keys (nodup_keys_merge distinct), keys_merge, foldl_addLabel,
    List.filterMap_append]
  congr 1
  · rw [keys, List.filterMap_map, ← List.filterMap_eq_map]
    refine List.filterMap_congr fun property member => ?_
    have former : lookup? (kept base removed) property.key = some property.value :=
      lookup?_of_mem (nodup_keys_kept distinct) member
    rw [Function.comp_apply, Function.comp_apply, lookup?_merge, ← lookup?_kept, former]
    cases lastValue? changes property.key <;> rfl
  · refine List.filterMap_congr fun key member => ?_
    obtain ⟨set, -⟩ := mem_newcomers_iff.mp member
    rw [lookup?_merge]
    cases found : lastValue? changes key with
    | none => exact absurd set (lastValue?_eq_none_iff.mp found)
    | some value => rfl

example :
    merge [⟨"a", .bool true⟩, ⟨"b", .bool true⟩]
      [⟨"a", .text "x"⟩, ⟨"b", .bool false⟩, ⟨"a", .text "y"⟩] ["a"] =
      [⟨"b", .bool false⟩, ⟨"a", .text "y"⟩] := by decide

/-- What properties become when some are set one after the other, and those in `removed` are taken
out before. -/
structure IsUpdated (before changes : List Property) (removed : List String)
    (after : List Property) : Prop where
  lookup : ∀ key, lookup? after key =
    (lastValue? changes key).or (if key ∈ removed then none else lookup? before key)
  distinct : (keys before).Nodup → (keys after).Nodup
  order : (keys before).Nodup → after =
    ((kept before removed).map fun property =>
        { property with value := (lastValue? changes property.key).getD property.value }) ++
      (newcomers (keys (kept before removed)) (keys changes)).filterMap fun key =>
        (lastValue? changes key).map (Property.mk key)

theorem isUpdated_merge : IsUpdated base changes removed (merge base changes removed) where
  lookup _ := lookup?_merge
  distinct := nodup_keys_merge
  order := merge_eq

end Property

/-- A change updates the properties of a node or a relationship in order. It takes labels of a node
out before it puts others behind the rest, and leaves numbers, ends and relationships as they are. -/
theorem apply_updates_in_order (node : Node) (patch : NodePatch) (relationship : Relationship)
    (change : RelationshipPatch) :
    (Property.IsUpdated node.properties patch.setProperties patch.removeProperties
        (node.apply patch).properties ∧
      (node.apply patch).labels =
        (node.labels.filter (· ∉ patch.removeLabels)) ++
          newcomers (node.labels.filter (· ∉ patch.removeLabels)) patch.addLabels ∧
      (node.apply patch).id = node.id ∧
      (node.apply patch).relationships = node.relationships) ∧
    (Property.IsUpdated relationship.properties change.setProperties change.removeProperties
        (relationship.apply change).properties ∧
      (relationship.apply change).id = relationship.id ∧
      (relationship.apply change).source = relationship.source ∧
      (relationship.apply change).target = relationship.target) := by
  have labels : (node.apply patch).labels =
      (node.labels.filter (· ∉ patch.removeLabels)) ++
        newcomers (node.labels.filter (· ∉ patch.removeLabels)) patch.addLabels := by
    rw [Node.apply, foldl_addLabel]
    simp
  exact ⟨⟨Property.isUpdated_merge, labels, rfl, rfl⟩, Property.isUpdated_merge, rfl, rfl, rfl⟩

end GraphStore

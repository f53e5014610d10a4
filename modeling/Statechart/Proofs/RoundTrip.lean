import Mathlib.Data.List.Forall2
import Statechart.Document.Printer
import Statechart.Document.Reader
import Statechart.Proofs.JsonText

/-!
# Model documents survive writing and reading

The value that a model is written as has the fields of the model as its members, in the order in
which they are read, and nothing but the kind of a vertex in front of them. So a field that was left
out is read as missing, and every other field is read as what it was written from, unless the
containers of the value nest too deep.
-/

namespace Statechart.Json.Value

variable {α : Type} {names : List String} {fields : List (Option Value)}
  {members : List (Option String × Value)} {n : Nat}

/-- The member for a field, if there is anything in the field. -/
def memberOf (name : String) (field : Option Value) : List (Option String × Value) :=
  (field.map (Prod.mk (some name))).toList

/-- The members for the fields of the given names. -/
def membersOf : List String → List (Option Value) → List (Option String × Value)
  | name :: names, field :: fields => memberOf name field ++ membersOf names fields
  | _, _ => []

/-- What members are for a field of the given name. -/
theorem filter_memberOf (name other : String) (field : Option Value) :
    (memberOf other field).filter (fun member => member.1 == some name) =
      if other = name then memberOf other field else [] := by
  cases field with
  | none => simp [memberOf]
  | some value => by_cases h : other = name <;> simp [memberOf, h]

/-- Members have the names of their fields. -/
theorem name_of_mem_membersOf {member : Option String × Value}
    (h : member ∈ membersOf names fields) :
    ∃ name ∈ names, member.1 = some name := by
  induction names generalizing fields with
  | nil => simp [membersOf] at h
  | cons name names ih =>
    cases fields with
    | nil => simp [membersOf] at h
    | cons field fields =>
      rw [membersOf, List.mem_append] at h
      rcases h with h | h
      · obtain ⟨value, -, rfl⟩ : ∃ value, field = some value ∧ (some name, value) = member := by
          simpa [memberOf] using h
        exact ⟨name, List.mem_cons_self, rfl⟩
      · obtain ⟨other, hother, hname⟩ := ih h
        exact ⟨other, List.mem_cons_of_mem _ hother, hname⟩

/-- No member has the name of no field. -/
theorem filter_membersOf_eq_nil {name : String} (h : name ∉ names) :
    (membersOf names fields).filter (fun member => member.1 == some name) = [] := by
  rw [List.filter_eq_nil_iff]
  intro member hmember hname
  obtain ⟨other, hother, heq⟩ := name_of_mem_membersOf hmember
  rw [heq, beq_iff_eq, Option.some.injEq] at hname
  exact h (hname ▸ hother)

/-- If every name has the members for its field, the fields are read. -/
theorem record_object (hnames : ∀ member ∈ members, member.1.isSome)
    (hfields :
    List.Forall₂ (fun name field => members.filter (fun member => member.1 == some name) =
      memberOf name field) names fields) : record names (.object members) = some fields := by
  rw [record, if_pos (List.all_eq_true.mpr hnames)]
  induction hfields with
  | nil => rfl
  | @cons name field names fields hfield _ ih =>
    rw [List.mapM_cons, hfield, ih]
    cases field <;> rfl

/-- Members for other fields in front do not change what members there are for a field. -/
theorem forall₂_membersOf (front : List (Option String × Value))
    (hfront : ∀ name ∈ names, front.filter (fun member => member.1 == some name) = [])
    (hnodup : names.Nodup) (hlength : names.length = fields.length) :
    List.Forall₂ (fun name field =>
      (front ++ membersOf names fields).filter (fun member => member.1 == some name) =
      memberOf name field) names fields := by
  induction names generalizing front fields with
  | nil =>
    rw [List.length_eq_zero_iff.mp hlength.symm]
    exact .nil
  | cons name names ih =>
    obtain ⟨field, fields, rfl⟩ := List.exists_cons_of_length_eq_add_one hlength.symm
    rw [List.nodup_cons] at hnodup
    rw [List.forall_mem_cons] at hfront
    refine .cons ?_ ?_
    · rw [membersOf, List.filter_append, hfront.1, List.nil_append, List.filter_append,
        filter_memberOf, if_pos rfl, filter_membersOf_eq_nil hnodup.1, List.append_nil]
    · rw [membersOf, ← List.append_assoc]
      refine ih (front ++ memberOf name field) ?_ hnodup.2 (Nat.succ.inj hlength)
      intro other hother
      have hne : name ≠ other := fun heq => hnodup.1 (heq ▸ hother)
      rw [List.filter_append, hfront.2 other hother, filter_memberOf, if_neg hne, List.append_nil]

/-- A record with different names is read as the fields that it was written from. -/
theorem record_membersOf (hnodup : names.Nodup) (hlength : names.length = fields.length) :
    record names (.object (membersOf names fields)) = some fields := by
  apply record_object
  · intro member hmember
    obtain ⟨name, -, hname⟩ := name_of_mem_membersOf hmember
    rw [hname]
    rfl
  · exact forall₂_membersOf [] (fun _ _ => rfl) hnodup hlength

/-- A field with a text, if there is one. -/
def textField (text : Option String) : Option Value := text.map fun s => .string (some s)

/-- A field with a list, if the list is not empty. -/
def listField (items : List Value) : Option Value :=
  if items.isEmpty then none else some (.array items)

/-- A member with a text, if there is one, is the member for that field. -/
theorem optionalMember_eq (name : String) (text : Option String) :
    optionalMember name text = memberOf name (textField text) := by
  cases text <;> rfl

/-- A member with a list, if the list is not empty, is the member for that field. -/
theorem listMember_eq (name : String) (items : List Value) :
    listMember name items = memberOf name (listField items) := by
  cases items <;> rfl

/-- A field with a text is read as the text. -/
theorem orElse?_textField (text : Option String) :
    orElse? none (nullable? text?) (textField text) = some text := by
  cases text <;> rfl

/-- Items that can be read one by one can be read as a list. -/
theorem list?_map {read : Value → Option α} {write : α → Value} {xs : List α}
    (h : ∀ x ∈ xs, read (write x) = some x) :
    list? read (.array (xs.map write)) = some xs := by
  rw [list?]
  induction xs with
  | nil => rfl
  | cons x xs ih =>
    rw [List.forall_mem_cons] at h
    rw [List.map_cons, List.mapM_cons, h.1, ih h.2]
    rfl

/-- If one of the items cannot be read, neither can the list. -/
theorem list?_map_eq_none {read : Value → Option α} {write : α → Value} {x : α} {xs : List α}
    (hx : x ∈ xs) (h : read (write x) = none) : list? read (.array (xs.map write)) = none := by
  rw [list?]
  induction hx with
  | head xs =>
    rw [List.map_cons, List.mapM_cons, h]
    rfl
  | tail y _ ih =>
    rw [List.map_cons, List.mapM_cons, ih]
    cases read (write y) <;> rfl

/-- A field with a list, or without one if the list is empty, is read as the list. -/
theorem orElse?_listField {read : Value → Option α} {write : α → Value} {xs : List α}
    (h : ∀ x ∈ xs, read (write x) = some x) :
    orElse? [] (list? read) (listField (xs.map write)) = some xs := by
  cases xs with
  | nil => rfl
  | cons x xs => exact list?_map h

/-- The items of an array nest less deep than the array. -/
theorem depth_array_le {items : List Value} : (array items).depth ≤ n + 1 ↔
    ∀ item ∈ items, item.depth ≤ n := by
  rw [depth, Nat.add_le_add_iff_right]
  induction items with
  | nil => simp [depthOfItems]
  | cons item rest ih => rw [depthOfItems, Nat.max_le, ih, List.forall_mem_cons]

/-- The members of an object nest less deep than the object. -/
theorem depth_object_le : (object members).depth ≤ n + 1 ↔
    ∀ member ∈ members, member.2.depth ≤ n := by
  rw [depth, Nat.add_le_add_iff_right]
  induction members with
  | nil => simp [depthOfMembers]
  | cons member rest ih => rw [depthOfMembers, Nat.max_le, ih, List.forall_mem_cons]

/-- All strings and numbers of an array are those of its items. -/
theorem all_array {string : Option String → Bool} {number : List Char → Bool} {items : List Value} :
    (array items).all string number ↔ ∀ item ∈ items, item.all string number := by
  rw [Value.all]
  induction items with
  | nil => simp [allItems]
  | cons item rest ih => rw [allItems, Bool.and_eq_true, ih, List.forall_mem_cons]

/-- All strings and numbers of an object are the names and those of its members. -/
theorem all_object {string : Option String → Bool} {number : List Char → Bool} :
    (object members).all string number ↔ ∀ member ∈ members, string member.1 ∧
      member.2.all string number := by
  rw [Value.all]
  induction members with
  | nil => simp [allMembers]
  | cons member rest ih =>
    rw [allMembers, Bool.and_eq_true, Bool.and_eq_true, ih, List.forall_mem_cons]

/-- What holds of the values of all members holds of what is in the fields. -/
theorem forall_membersOf {P : Value → Prop} (hlength : names.length = fields.length) :
    (∀ member ∈ membersOf names fields, P member.2) ↔
      ∀ field ∈ fields, ∀ value ∈ field, P value := by
  induction names generalizing fields with
  | nil =>
    rw [List.length_eq_zero_iff.mp hlength.symm]
    simp [membersOf]
  | cons name names ih =>
    obtain ⟨field, fields, rfl⟩ := List.exists_cons_of_length_eq_add_one hlength.symm
    rw [membersOf, List.forall_mem_append, List.forall_mem_cons, ih (Nat.succ.inj hlength)]
    refine and_congr_left fun _ => ?_
    cases field <;> simp [memberOf]

/-- A record nests one deeper than its fields. -/
theorem depth_record_le (hlength : names.length = fields.length) :
    (object (membersOf names fields)).depth ≤ n + 1 ↔
      ∀ field ∈ fields, ∀ value ∈ field, value.depth ≤ n := by
  rw [depth_object_le, forall_membersOf (P := fun value => value.depth ≤ n) hlength]

/-- A field with a list nests one deeper than the items. -/
theorem depth_listField_le {items : List Value} :
    (∀ value ∈ listField items, value.depth ≤ n + 1) ↔ ∀ item ∈ items, item.depth ≤ n := by
  cases items with
  | nil => simp [listField]
  | cons item rest =>
    rw [← depth_array_le]
    simp [listField]

/-- A field with a text does not nest. -/
theorem depth_textField {text : Option String} : ∀ value ∈ textField text, value.depth ≤ n := by
  intro value hvalue
  obtain ⟨s, -, rfl⟩ := Option.map_eq_some_iff.mp hvalue
  exact Nat.zero_le n

/-- A record with plain fields is plain. -/
theorem isPlain_record (hlength : names.length = fields.length)
    (h : ∀ field ∈ fields, ∀ value ∈ field, value.IsPlain) :
    (object (membersOf names fields)).IsPlain := by
  intro number
  rw [all_object]
  intro member hmember
  obtain ⟨name, -, hname⟩ := name_of_mem_membersOf hmember
  refine ⟨by rw [hname, Option.isSome_some], (forall_membersOf hlength).mpr h member hmember number⟩

/-- A field with a list of plain items is plain. -/
theorem isPlain_listField {items : List Value} (h : ∀ item ∈ items, item.IsPlain) :
    ∀ value ∈ listField items, value.IsPlain := by
  intro value hvalue number
  cases items with
  | nil => simp [listField] at hvalue
  | cons item rest =>
    obtain rfl : array (item :: rest) = value := Option.some.inj hvalue
    exact all_array.mpr fun item hitem => h item hitem number

/-- A text is plain. -/
theorem isPlain_text {s : String} : ∀ value ∈ some (Value.string (some s)), value.IsPlain := by
  rintro _ ⟨⟩ _
  rfl

/-- A field with a text is plain. -/
theorem isPlain_textField {text : Option String} : ∀ value ∈ textField text, value.IsPlain := by
  intro value hvalue number
  obtain ⟨s, -, rfl⟩ := Option.map_eq_some_iff.mp hvalue
  rfl

end Statechart.Json.Value

namespace Statechart

open Json Json.Value

namespace BehaviorDoc

/-- The fields of a behavior. -/
def fields (b : BehaviorDoc) : List (Option Value) :=
  [listField (b.triggers.map fun t => .string (some t)), textField b.guard, textField b.action,
    textField b.target]

/-- A behavior is written as its fields. -/
theorem toValue_eq (b : BehaviorDoc) :
    b.toValue = .object (membersOf ["triggers", "guard", "action", "target"] b.fields) := by
  rw [toValue, listMember_eq, optionalMember_eq, optionalMember_eq, optionalMember_eq]
  simp [fields, membersOf]

/-- A behavior that is written can be read. -/
theorem ofValue_toValue (b : BehaviorDoc) : ofValue b.toValue = some b := by
  have htriggers : orElse? [] (list? text?) (listField (b.triggers.map fun t => .string (some t))) =
      some b.triggers := orElse?_listField fun _ _ => rfl
  have hrecord : b.toValue.record ["triggers", "guard", "action", "target"] = some b.fields := by
    rw [toValue_eq]
    exact record_membersOf (by decide) rfl
  rw [ofValue, hrecord, fields]
  simp [htriggers, orElse?_textField]

/-- A behavior nests two deep at most. -/
theorem depth_toValue_le (b : BehaviorDoc) : b.toValue.depth ≤ 2 := by
  rw [toValue_eq, depth_record_le (by rfl)]
  simp only [fields, List.forall_mem_cons, List.not_mem_nil, false_implies, implies_true, and_true]
  refine ⟨depth_listField_le.mpr ?_, depth_textField, depth_textField, depth_textField⟩
  rw [List.forall_mem_map]
  exact fun _ _ => Nat.le_refl 0

/-- A behavior is written as a plain value. -/
theorem isPlain_toValue (b : BehaviorDoc) : b.toValue.IsPlain := by
  rw [toValue_eq]
  apply isPlain_record (by rfl)
  simp only [fields, List.forall_mem_cons, List.not_mem_nil, false_implies, implies_true, and_true]
  refine ⟨isPlain_listField ?_, isPlain_textField, isPlain_textField, isPlain_textField⟩
  rw [List.forall_mem_map]
  exact fun _ _ _ => rfl

end BehaviorDoc

namespace VertexDoc

variable {nested : Bool} {levels : Nat} {names : List String} {fields : List (Option Value)}

/-- The values of vertices are made one by one. -/
theorem toValues_eq_map (vertices : List VertexDoc) : toValues vertices = vertices.map toValue := by
  induction vertices with
  | nil => rfl
  | cons vertex rest ih => rw [toValues, ih, List.map_cons]

/-- What a vertex is written as: the name of its kind, and its fields with their names. -/
structure Layout where
  kind : String
  names : List String
  fields : List (Option Value)

/-- How a vertex is laid out. -/
def layout : VertexDoc → Layout
  | state name behaviors vertices =>
    ⟨"state", ["name", "behaviors", "vertices"],
      [some (.string (some name)), listField (behaviors.map BehaviorDoc.toValue),
        listField (toValues vertices)]⟩
  | initial behaviors =>
    ⟨"initial_state", ["behaviors"], [some (.array (behaviors.map BehaviorDoc.toValue))]⟩
  | point kind label behaviors =>
    ⟨kind.tagName, ["label", "behaviors"],
      [some (.string (some label)), some (.array (behaviors.map BehaviorDoc.toValue))]⟩
  | final => ⟨"final_state", [], []⟩

/-- The fields of a vertex have different names, none of them that of the kind. -/
theorem layout_spec (vertex : VertexDoc) :
    vertex.layout.names.Nodup ∧ "kind" ∉ vertex.layout.names ∧
      vertex.layout.names.length = vertex.layout.fields.length := by
  cases vertex <;> simp [layout]

/-- A vertex is written as its kind and its fields. -/
theorem toValue_eq (vertex : VertexDoc) :
    vertex.toValue =
      .object (textMember "kind" vertex.layout.kind ::
        membersOf vertex.layout.names vertex.layout.fields) := by
  cases vertex with
  | state name behaviors vertices =>
    rw [toValue, listMember_eq, listMember_eq]
    simp [layout, membersOf, memberOf, textMember]
  | initial behaviors => rfl
  | point kind label behaviors => rfl
  | final => rfl

/-- The kind that is written in front of the fields is found. -/
theorem split_toValue (vertex : VertexDoc) :
    split vertex.toValue =
      some (.string (some vertex.layout.kind),
        .object (membersOf vertex.layout.names vertex.layout.fields)) := by
  obtain ⟨-, hkind, -⟩ := vertex.layout_spec
  rw [toValue_eq]
  generalize vertex.layout = layout at *
  have hfields :
      (membersOf layout.names layout.fields).filter (fun member => member.1 == some "kind") = [] :=
    filter_membersOf_eq_nil hkind
  have hothers :
      (membersOf layout.names layout.fields).filter (fun member => !(member.1 == some "kind")) =
      membersOf layout.names layout.fields := by
    rw [List.filter_eq_self]
    intro member hmember
    rw [List.filter_eq_nil_iff] at hfields
    simpa using hfields member hmember
  have hpartition :
      (textMember "kind" layout.kind :: membersOf layout.names layout.fields).partition
      (fun member => member.1 == some "kind") =
        ([textMember "kind" layout.kind], membersOf layout.names layout.fields) := by
    rw [List.partition_eq_filter_filter]
    refine Prod.ext ?_ ?_
    · simp [textMember, hfields]
    · simpa [textMember, Function.comp_def] using hothers
  rw [split, hpartition]
  rfl

/-- The fields of a vertex are read. -/
theorem record_layout (vertex : VertexDoc) :
    record vertex.layout.names (.object (membersOf vertex.layout.names vertex.layout.fields)) =
      some vertex.layout.fields := by
  obtain ⟨hnodup, -, hlength⟩ := vertex.layout_spec
  exact record_membersOf hnodup hlength

/-- The behaviors of a vertex are read, whether or not an empty list of them is left out. -/
theorem behaviors?_field (behaviors : List BehaviorDoc) :
    behaviors? (listField (behaviors.map BehaviorDoc.toValue)) = some behaviors ∧
      behaviors? (some (.array (behaviors.map BehaviorDoc.toValue))) = some behaviors :=
  ⟨orElse?_listField fun b _ => b.ofValue_toValue, list?_map fun b _ => b.ofValue_toValue⟩

/-- A vertex nests one deeper than its fields. -/
theorem depth_toValue_le (vertex : VertexDoc) :
    vertex.toValue.depth ≤ levels + 1 ↔ ∀ field ∈ vertex.layout.fields, ∀ value ∈ field,
      value.depth ≤ levels := by
  obtain ⟨-, -, hlength⟩ := vertex.layout_spec
  rw [toValue_eq, depth_object_le, List.forall_mem_cons, ← depth_record_le hlength, depth_object_le]
  exact and_iff_right (Nat.zero_le levels)

/-- A vertex nests at least one deep. -/
theorem exists_level {vertex : VertexDoc} (h : vertex.toValue.depth ≤ levels) :
    ∃ inner, levels = inner + 1 := by
  rw [toValue_eq, depth] at h
  exact Nat.exists_eq_add_one.mpr (Nat.lt_of_lt_of_le (Nat.succ_pos _) h)

mutual

/-- A vertex that is written can be read, if enough levels are left. -/
theorem ofValue_toValue (nested : Bool) (levels : Nat) :
    (vertex : VertexDoc) → vertex.toValue.depth ≤ levels →
    ofValue nested levels vertex.toValue = some vertex
  | state name behaviors vertices, h => by
    obtain ⟨inner, rfl⟩ := exists_level h
    have hrecord : record ["name", "behaviors", "vertices"] _ = _ :=
      record_layout (state name behaviors vertices)
    have htag : tag? nested (.string (some (state name behaviors vertices).layout.kind)) =
      some .state := rfl
    have hdepth : ∀ value ∈ listField (toValues vertices), value.depth ≤ inner :=
      (depth_toValue_le _).mp h _ (by simp [layout])
    have hitems : ∀ item ∈ toValues vertices, item.depth ≤ inner :=
      depth_listField_le.mp fun value hvalue => Nat.le_succ_of_le (hdepth value hvalue)
    rw [toValues_eq_map, List.forall_mem_map] at hitems
    have hvertices : orElse? [] (list? (ofValue true inner)) (listField (toValues vertices)) =
        some vertices := by
      rw [toValues_eq_map]
      exact orElse?_listField (ofValue_toValues inner vertices hitems)
    simp only [ofValue, split_toValue, htag, hrecord, Option.bind_eq_bind, Option.bind_some]
    simp only [layout, text?, (behaviors?_field behaviors).1, hvertices, Option.bind_some,
      Option.pure_def]
  | initial behaviors, h => by
    obtain ⟨inner, rfl⟩ := exists_level h
    have hrecord : record ["behaviors"] _ = _ := record_layout (initial behaviors)
    have htag : tag? nested (.string (some (initial behaviors).layout.kind)) = some .initial := rfl
    simp only [ofValue, split_toValue, htag, hrecord, Option.bind_eq_bind, Option.bind_some]
    simp only [layout, (behaviors?_field behaviors).2, Option.bind_some, Option.pure_def]
  | point kind label behaviors, h => by
    obtain ⟨inner, rfl⟩ := exists_level h
    have hrecord : record ["label", "behaviors"] _ = _ := record_layout (point kind label behaviors)
    have htag : tag? nested (.string (some (point kind label behaviors).layout.kind)) =
        some (.point kind) := by
      cases kind <;> rfl
    simp only [ofValue, split_toValue, htag, hrecord, Option.bind_eq_bind, Option.bind_some]
    simp only [layout, text?, (behaviors?_field behaviors).2, Option.bind_some, Option.pure_def]
  | final, h => by
    obtain ⟨inner, rfl⟩ := exists_level h
    have hrecord : record [] _ = _ := record_layout final
    have htag : tag? nested (.string (some final.layout.kind)) = some .final := rfl
    simp only [ofValue, split_toValue, htag, hrecord, Option.bind_eq_bind, Option.bind_some,
      Option.pure_def]

/-- Vertices that are written can be read one by one, if enough levels are left. -/
theorem ofValue_toValues (levels : Nat) : (vertices : List VertexDoc) →
    (∀ vertex ∈ vertices, vertex.toValue.depth ≤ levels) →
    ∀ vertex ∈ vertices, ofValue true levels vertex.toValue = some vertex
  | [], _ => by simp
  | vertex :: rest, h => by
    rw [List.forall_mem_cons] at h ⊢
    exact ⟨ofValue_toValue true levels vertex h.1, ofValue_toValues levels rest h.2⟩

end

/-- A vertex with plain fields is written as a plain value. -/
theorem isPlain_of_fields {vertex : VertexDoc}
    (h : ∀ field ∈ vertex.layout.fields, ∀ value ∈ field, value.IsPlain) :
    vertex.toValue.IsPlain := by
  obtain ⟨-, -, hlength⟩ := vertex.layout_spec
  rw [toValue_eq]
  change (object (membersOf ("kind" :: vertex.layout.names)
    (some (.string (some vertex.layout.kind)) :: vertex.layout.fields))).IsPlain
  apply isPlain_record
  · rw [List.length_cons, List.length_cons, hlength]
  · rw [List.forall_mem_cons]
    exact ⟨isPlain_text, h⟩

/-- The behaviors of a vertex are written as a plain value. -/
theorem isPlain_behaviors (behaviors : List BehaviorDoc) :
    ∀ value ∈ some (Value.array (behaviors.map BehaviorDoc.toValue)), value.IsPlain := by
  rintro _ ⟨⟩ number
  rw [all_array, List.forall_mem_map]
  exact fun b _ => b.isPlain_toValue number

mutual

/-- A vertex is written as a plain value. -/
theorem isPlain_toValue : (vertex : VertexDoc) → vertex.toValue.IsPlain
  | state name behaviors vertices => by
    apply isPlain_of_fields
    simp only [layout, List.forall_mem_cons, List.not_mem_nil, false_implies, implies_true,
      and_true]
    refine ⟨isPlain_text, isPlain_listField ?_, isPlain_listField ?_⟩
    · rw [List.forall_mem_map]
      exact fun b _ => b.isPlain_toValue
    · rw [toValues_eq_map, List.forall_mem_map]
      exact isPlain_toValues vertices
  | initial behaviors => by
    apply isPlain_of_fields
    simp only [layout, List.forall_mem_cons, List.not_mem_nil, false_implies, implies_true,
      and_true]
    exact isPlain_behaviors behaviors
  | point kind label behaviors => by
    apply isPlain_of_fields
    simp only [layout, List.forall_mem_cons, List.not_mem_nil, false_implies, implies_true,
      and_true]
    exact ⟨isPlain_text, isPlain_behaviors behaviors⟩
  | final => by
    apply isPlain_of_fields
    simp [layout]

/-- Vertices are written as plain values. -/
theorem isPlain_toValues : (vertices : List VertexDoc) → ∀ vertex ∈ vertices, vertex.toValue.IsPlain
  | [] => by simp
  | vertex :: rest => by
    rw [List.forall_mem_cons]
    exact ⟨vertex.isPlain_toValue, isPlain_toValues rest⟩

end

/-- A vertex at the top is read exactly if it leaves room for the two containers around it. -/
theorem ofTopValue_toValue (vertex : VertexDoc) :
    ofTopValue vertex.toValue = if vertex.toValue.depth ≤ maxNesting - 2 then some vertex
      else none := by
  rw [ofTopValue, isSound, vertex.isPlain_toValue, Bool.and_true]
  simp only [decide_eq_true_eq]
  split
  · next h => exact ofValue_toValue false maxNesting vertex (Nat.le_trans h (by decide))
  · rfl

end VertexDoc

namespace ModelDoc

/-- The fields of a model. -/
def fields (model : ModelDoc) : List (Option Value) :=
  [some (.string (some model.name)), textField model.description,
    listField (model.behaviors.map BehaviorDoc.toValue),
    listField (model.vertices.map VertexDoc.toValue)]

/-- A model is written as its fields. -/
theorem toValue_eq (model : ModelDoc) :
    model.toValue =
      .object (membersOf ["name", "description", "behaviors", "vertices"] model.fields) := by
  rw [toValue, optionalMember_eq, listMember_eq, listMember_eq, VertexDoc.toValues_eq_map]
  simp [fields, membersOf, memberOf, textMember]

/-- A model is written as a plain value. -/
theorem isPlain_toValue (model : ModelDoc) : model.toValue.IsPlain := by
  rw [toValue_eq]
  apply isPlain_record (by rfl)
  simp only [fields, List.forall_mem_cons, List.not_mem_nil, false_implies, implies_true, and_true]
  refine ⟨isPlain_text, isPlain_textField, isPlain_listField ?_, isPlain_listField ?_⟩
  · rw [List.forall_mem_map]
    exact fun b _ => b.isPlain_toValue
  · rw [List.forall_mem_map]
    exact VertexDoc.isPlain_toValues model.vertices

/-- A model nests as deep as allowed exactly if its vertices leave room for the two
containers around them. -/
theorem depth_toValue_le (model : ModelDoc) :
    model.toValue.depth ≤ maxNesting ↔ ∀ vertex ∈ model.vertices,
      vertex.toValue.depth ≤ maxNesting - 2 := by
  rw [toValue_eq]
  change _ ≤ 126 + 1 ↔ _
  rw [depth_record_le (by rfl)]
  simp only [fields, List.forall_mem_cons, List.not_mem_nil, false_implies, implies_true, and_true]
  rw [depth_listField_le, depth_listField_le, List.forall_mem_map, List.forall_mem_map]
  constructor
  · intro h
    exact h.2.2.2
  · intro h
    refine ⟨?_, depth_textField, fun b _ => Nat.le_trans b.depth_toValue_le (by decide), h⟩
    rintro _ ⟨⟩
    exact Nat.zero_le _

/-- A model that is written can be read exactly if it does not nest too deep. -/
theorem ofValue_toValue (model : ModelDoc) :
    ofValue model.toValue = if model.toValue.depth ≤ maxNesting then some model else none := by
  have hrecord : model.toValue.record ["name", "description", "behaviors", "vertices"] =
      some model.fields := by
    rw [toValue_eq]
    exact record_membersOf (by decide) rfl
  have hvertices :
      orElse? [] (list? VertexDoc.ofTopValue) (listField (model.vertices.map VertexDoc.toValue)) =
      if model.toValue.depth ≤ maxNesting then some model.vertices else none := by
    split
    · next h =>
      rw [depth_toValue_le] at h
      refine orElse?_listField fun vertex hvertex => ?_
      rw [VertexDoc.ofTopValue_toValue, if_pos (h vertex hvertex)]
    · next h =>
      simp only [depth_toValue_le, Classical.not_forall] at h
      obtain ⟨vertex, hvertex, hdeep⟩ := h
      obtain ⟨first, rest, hlist⟩ := List.exists_cons_of_ne_nil (List.ne_nil_of_mem hvertex)
      have hnone : list? VertexDoc.ofTopValue (.array (model.vertices.map VertexDoc.toValue)) =
          none := by
        apply list?_map_eq_none hvertex
        rw [VertexDoc.ofTopValue_toValue, if_neg hdeep]
      rw [hlist] at hnone ⊢
      exact hnone
  rw [ofValue, hrecord, fields]
  simp only [Option.bind_eq_bind, Option.bind_some, text?, orElse?_textField,
    (VertexDoc.behaviors?_field model.behaviors).1, hvertices, Option.pure_def]
  split <;> rfl

/-- A model document that is written out is read back as it was, unless its text nests
too deep to be read. -/
theorem printed_reads_back (model : ModelDoc) :
    parse model.print = if model.toValue.depth ≤ maxNesting then some model else none := by
  rw [parse, print, parse_print model.isPlain_toValue, Option.bind_some, ofValue_toValue]

end ModelDoc

end Statechart

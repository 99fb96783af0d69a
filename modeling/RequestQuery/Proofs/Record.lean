/-
# The two ways of writing a record

A record that is written flat lists its columns and then its relations, so a name that both have
occurs twice.  Collapsed as a reader collapses it, a repeated name keeps its first place and has its
last value: that is the place of the column with the value of the relation, and so this is the
record in which each relation is put in the place of its column (`collapsed_toFlatJson`).  Where no
name is repeated there is nothing to collapse (`Value.collapsed_of_distinct`), and the two ways give
the same text.
-/
import RequestQuery.Record

namespace RequestQuery

set_option autoImplicit false

namespace Json.Value

/-! ## Values without repeated names -/

mutual

/-- In every object of the value a repeated name keeps its first place and its last value. -/
def collapsed : Value → Value
  | .array items => .array (collapsedItems items)
  | .object members => .object (Ordered.ofList (collapsedMembers members))
  | .null => .null
  | .bool b => .bool b
  | .number n => .number n
  | .string s => .string s

def collapsedItems : List Value → List Value
  | [] => []
  | value :: rest => value.collapsed :: collapsedItems rest

def collapsedMembers : List (String × Value) → List (String × Value)
  | [] => []
  | (name, value) :: rest => (name, value.collapsed) :: collapsedMembers rest

end

mutual

theorem collapsed_of_distinct : ∀ {value : Value}, value.Distinct → value.collapsed = value
  | .array _, distinct => by rw [collapsed, collapsedItems_of_distinct distinct]
  | .object _, ⟨names, distinct⟩ => by
      rw [collapsed, collapsedMembers_of_distinct distinct, Ordered.ofList_of_distinct names]
  | .null, _ => rfl
  | .bool _, _ => rfl
  | .number _, _ => rfl
  | .string _, _ => rfl

theorem collapsedItems_of_distinct :
    ∀ {items : List Value}, allDistinct items → collapsedItems items = items
  | [], _ => rfl
  | _ :: _, ⟨first, others⟩ => by
      rw [collapsedItems, collapsed_of_distinct first, collapsedItems_of_distinct others]

theorem collapsedMembers_of_distinct :
    ∀ {members : List (String × Value)}, allMembersDistinct members →
      collapsedMembers members = members
  | [], _ => rfl
  | _ :: _, ⟨first, others⟩ => by
      rw [collapsedMembers, collapsed_of_distinct first, collapsedMembers_of_distinct others]

end

theorem collapsedMembers_append (members others : List (String × Value)) :
    collapsedMembers (members ++ others) = collapsedMembers members ++ collapsedMembers others := by
  induction members with
  | nil => rfl
  | cons member rest ih => rw [List.cons_append, collapsedMembers, ih, collapsedMembers]; rfl

theorem allMembersDistinct_append {members others : List (String × Value)} :
    allMembersDistinct (members ++ others) ↔
      allMembersDistinct members ∧ allMembersDistinct others := by
  induction members with
  | nil => exact (iff_of_eq (true_and _)).symm
  | cons member rest ih =>
      rw [List.cons_append, allMembersDistinct, ih, allMembersDistinct, and_assoc]

end Json.Value

namespace Record

/-! ## Conditions on every level -/

mutual

/-- The condition holds of the columns and relations of the record and of all records below it. -/
def Everywhere (p : Row → Ordered Related → Prop) : Record → Prop
  | .of fields relations => p fields relations ∧ everywhereIn p relations

def everywhereIn (p : Row → Ordered Related → Prop) : List (String × Related) → Prop
  | [] => True
  | (_, related) :: rest => everywhereOf p related ∧ everywhereIn p rest

def everywhereOf (p : Row → Ordered Related → Prop) : Related → Prop
  | .many records => everywhereAmong p records
  | .one none => True
  | .one (some record) => Everywhere p record

def everywhereAmong (p : Row → Ordered Related → Prop) : List Record → Prop
  | [] => True
  | record :: rest => Everywhere p record ∧ everywhereAmong p rest

end

/-- No two columns have the same name, nor have two relations, nor two members of an object in a
column. -/
def IsDistinct (fields : Row) (relations : Ordered Related) : Prop :=
  (Json.Value.object fields).Distinct ∧ relations.Distinct

/-- No relation has the name of a column. -/
def IsApart (fields : Row) (relations : Ordered Related) : Prop :=
  ∀ name ∈ relations.names, name ∉ fields.names

/-- What holds of every record, since columns and relations are kept by name. -/
abbrev Distinct : Record → Prop :=
  Everywhere IsDistinct

abbrev Apart : Record → Prop :=
  Everywhere IsApart

/-! ## Collapsing what is written flat -/

theorem placed_eq_foldl (fields : Row) (relations : List (String × Related)) :
    placed fields relations =
      (relations.map fun entry => (entry.1, relatedToJson entry.2)).foldl
        (fun acc entry => Ordered.put acc entry.1 entry.2) fields := by
  induction relations generalizing fields with
  | nil => rfl
  | cons entry rest ih => rw [placed, ih, List.map_cons, List.foldl_cons]

mutual

theorem collapsed_toFlatJson :
    ∀ {record : Record}, record.Distinct → record.toFlatJson.collapsed = record.toJson
  | .of fields relations, ⟨⟨⟨names, columns⟩, _⟩, below⟩ => by
      have kept : fields.foldl (fun acc entry => Ordered.put acc entry.1 entry.2) [] = fields :=
        Ordered.ofList_of_distinct names
      rw [toFlatJson, Json.Value.collapsed, Json.Value.collapsedMembers_append,
        Json.Value.collapsedMembers_of_distinct columns, collapsed_flatRelations below,
        Ordered.ofList, List.foldl_append, kept, ← placed_eq_foldl, toJson]

theorem collapsed_flatRelations :
    ∀ {relations : List (String × Related)},
      everywhereIn IsDistinct relations →
      Json.Value.collapsedMembers (flatRelations relations) =
        relations.map fun entry => (entry.1, relatedToJson entry.2)
  | [], _ => rfl
  | _ :: _, ⟨first, others⟩ => by
      rw [flatRelations, Json.Value.collapsedMembers, collapsed_relatedToFlatJson first,
        collapsed_flatRelations others, List.map_cons]

theorem collapsed_relatedToFlatJson :
    ∀ {related : Related},
      everywhereOf IsDistinct related →
      (relatedToFlatJson related).collapsed = relatedToJson related
  | .many _, distinct => by
      rw [relatedToFlatJson, Json.Value.collapsed, collapsed_listToFlatJson distinct, relatedToJson]
  | .one none, _ => rfl
  | .one (some _), distinct => by
      rw [relatedToFlatJson, collapsed_toFlatJson distinct, relatedToJson]

theorem collapsed_listToFlatJson :
    ∀ {records : List Record},
      everywhereAmong IsDistinct records →
      Json.Value.collapsedItems (listToFlatJson records) = listToJson records
  | [], _ => rfl
  | _ :: _, ⟨first, others⟩ => by
      rw [listToFlatJson, Json.Value.collapsedItems, collapsed_toFlatJson first,
        collapsed_listToFlatJson others, listToJson]

end

/-! ## Records without a name of both kinds -/

theorem names_flatRelations (relations : Ordered Related) :
    Ordered.names (flatRelations relations) = relations.names := by
  induction relations with
  | nil => rfl
  | cons entry rest ih => exact congrArg (entry.1 :: ·) ih

mutual

theorem distinct_toFlatJson :
    ∀ {record : Record}, record.Distinct → record.Apart → record.toFlatJson.Distinct
  | .of fields relations, ⟨⟨⟨columns, values⟩, names⟩, below⟩, ⟨apart, belowApart⟩ => by
      refine ⟨?_, Json.Value.allMembersDistinct_append.2
        ⟨values, distinct_flatRelations below belowApart⟩⟩
      have all : Ordered.names (fields ++ flatRelations relations) =
          Ordered.names fields ++ Ordered.names relations := by
        rw [← names_flatRelations relations]
        exact List.map_append
      rw [all, List.nodup_append]
      exact ⟨columns, names, fun column inFields name inRelations same =>
        apart name inRelations (same ▸ inFields)⟩

theorem distinct_flatRelations :
    ∀ {relations : List (String × Related)}, everywhereIn IsDistinct relations →
      everywhereIn IsApart relations → Json.Value.allMembersDistinct (flatRelations relations)
  | [], _, _ => trivial
  | _ :: _, ⟨first, others⟩, ⟨firstApart, othersApart⟩ =>
      ⟨distinct_relatedToFlatJson first firstApart, distinct_flatRelations others othersApart⟩

theorem distinct_relatedToFlatJson :
    ∀ {related : Related}, everywhereOf IsDistinct related → everywhereOf IsApart related →
      (relatedToFlatJson related).Distinct
  | .many _, distinct, apart => distinct_listToFlatJson distinct apart
  | .one none, _, _ => trivial
  | .one (some _), distinct, apart => distinct_toFlatJson distinct apart

theorem distinct_listToFlatJson :
    ∀ {records : List Record}, everywhereAmong IsDistinct records →
      everywhereAmong IsApart records → Json.Value.allDistinct (listToFlatJson records)
  | [], _, _ => trivial
  | _ :: _, ⟨first, others⟩, ⟨firstApart, othersApart⟩ =>
      ⟨distinct_toFlatJson first firstApart, distinct_listToFlatJson others othersApart⟩

end

/-- **The two ways of writing a record agree.**  Collapsed, the flat one is the other one, with the
members in the same order; and where no record has a name for a column and for a relation, the two
texts are the same. -/
theorem flat_agrees {record : Record} (distinct : record.Distinct) :
    record.toFlatJson.collapsed = record.toJson ∧
      (record.Apart → record.toFlatJson.text = record.toJson.text) := by
  refine ⟨collapsed_toFlatJson distinct, fun apart => ?_⟩
  have same : record.toFlatJson = record.toJson := by
    rw [← collapsed_toFlatJson distinct,
      Json.Value.collapsed_of_distinct (distinct_toFlatJson distinct apart)]
  rw [same]

/-- A user with a column and a relation of the same name, which has a post of that kind, too; and a
post without such a name. -/
theorem flat_agrees_posts :
    let post := of [("id", .string "p"), ("author", .string "u")]
      [("comments", .many []), ("author", .one none)]
    let user := of [("posts", .null), ("id", .string "u")] [("posts", .many [post])]
    let plain := of [("id", .string "p")] [("author", .one (some (ofRow [("id", .string "u")])))]
    user.Distinct ∧
      user.toFlatJson.text ≠ user.toJson.text ∧
      user.toFlatJson.collapsed = user.toJson ∧
      plain.Distinct ∧ plain.Apart ∧
      plain.toFlatJson.text = plain.toJson.text := by
  intro post user plain
  have distinct : user.Distinct := by
    simp [user, post, Distinct, Everywhere, everywhereIn, everywhereOf, everywhereAmong, IsDistinct,
      Json.Value.Distinct, Json.Value.allMembersDistinct, Ordered.Distinct, Ordered.names]
  have plainDistinct : plain.Distinct := by
    simp [plain, ofRow, Distinct, Everywhere, everywhereIn, everywhereOf, IsDistinct,
      Json.Value.Distinct, Json.Value.allMembersDistinct, Ordered.Distinct, Ordered.names]
  have apart : plain.Apart := by
    simp [plain, ofRow, Apart, Everywhere, everywhereIn, everywhereOf, IsApart, Ordered.names]
  have different : user.toFlatJson.text ≠ user.toJson.text := by decide +kernel
  exact ⟨distinct, different, (flat_agrees distinct).1, plainDistinct, apart,
    (flat_agrees plainDistinct).2 apart⟩

end Record

end RequestQuery
